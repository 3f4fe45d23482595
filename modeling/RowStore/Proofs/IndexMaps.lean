import RowStore.Memory.Table
import RowStore.Proofs.SeekLaws

/-!
# The index maps of a table

A table keeps one map for each secondary index, under the index's name.  Adding or dropping the entries of a row goes
over all indexes, and since their names are distinct each map gets its own entry, once (`get?_addEntries`,
`get?_dropEntries`).
-/
namespace RowStore
namespace Memory

theorem length_project (columns : List Column) (row : List Cell) : (project columns row).length = columns.length :=
  List.length_map _

namespace Table

open Std (TransCmp OrientedCmp LawfulEqOrd)

variable {α : Type}

/-- Each name of an index stands for one index. -/
abbrev DistinctNames (secondary : List Index) : Prop := secondary.Pairwise fun a b => compare a.name b.name = .lt

theorem compare_name_eq {a b : String} : compare a b = .eq ↔ a = b :=
  ⟨LawfulEqOrd.eq_of_compare, fun h => h ▸ Std.ReflCmp.compare_self⟩

/-! ## The maps of an empty table -/

theorem insertEntry_of_gt {name : String} {entries : α} : ∀ {l : List (String × α)},
    (∀ e ∈ l, compare e.1 name = .lt) → OrderedMap.insertEntry name entries l = l ++ [(name, entries)]
  | [], _ => rfl
  | e :: l, h => by
    have he : compare name e.1 = .gt := OrientedCmp.gt_of_lt (h e List.mem_cons_self)
    unfold OrderedMap.insertEntry
    rw [he]
    exact congrArg (e :: ·) (insertEntry_of_gt fun x hx => h x (List.mem_cons_of_mem _ hx))

theorem keys_insert_of_gt {maps : OrderedMap String α} {name : String} (entries : α)
    (h : ∀ k ∈ maps.keys, compare k name = .lt) : (maps.insert name entries).keys = maps.keys ++ [name] := by
  unfold OrderedMap.insert OrderedMap.keys at *
  rw [insertEntry_of_gt fun e he => h e.1 (List.mem_map_of_mem he), List.map_append]
  rfl

theorem keys_foldl_insert {entries : α} : ∀ {secondary : List Index} {maps : OrderedMap String α},
    DistinctNames secondary → (∀ k ∈ maps.keys, ∀ index ∈ secondary, compare k index.name = .lt) →
      (secondary.foldl (fun m i => m.insert i.name entries) maps).keys = maps.keys ++ secondary.map (·.name)
  | [], maps, _, _ => by rw [List.foldl_nil, List.map_nil, List.append_nil]
  | index :: secondary, maps, hnames, hbefore => by
    obtain ⟨hfirst, hnames⟩ := List.pairwise_cons.1 hnames
    have hkeys := keys_insert_of_gt entries fun k hk => hbefore k hk index List.mem_cons_self
    rw [List.foldl_cons, keys_foldl_insert hnames, hkeys, List.map_cons, List.append_assoc, List.singleton_append]
    intro k hk other hother
    rw [hkeys, List.mem_append, List.mem_singleton] at hk
    rcases hk with hk | rfl
    · exact hbefore k hk other (List.mem_cons_of_mem _ hother)
    · exact hfirst other hother

theorem get?_foldl_insert {entries : α} {index : Index} : ∀ {secondary : List Index} {maps : OrderedMap String α},
    index ∈ secondary ∨ maps.get? index.name = some entries →
      (secondary.foldl (fun m i => m.insert i.name entries) maps).get? index.name = some entries
  | [], _, h => h.resolve_left (List.not_mem_nil)
  | other :: secondary, maps, h => by
    rw [List.foldl_cons]
    refine get?_foldl_insert ?_
    rcases h with h | h
    · rcases List.mem_cons.1 h with rfl | h
      · exact Or.inr OrderedMap.get?_insert_self
      · exact Or.inl h
    · right
      rw [OrderedMap.get?_insert, h, ite_self]

/-! ## Changing every map -/

theorem keys_foldl_adjust (f : Index → α → α) : ∀ (secondary : List Index) (maps : OrderedMap String α),
    (secondary.foldl (fun m i => m.adjust i.name (f i)) maps).keys = maps.keys
  | [], _ => rfl
  | index :: secondary, maps => by
    rw [List.foldl_cons, keys_foldl_adjust f secondary, OrderedMap.keys_adjust]

theorem get?_foldl_adjust_of_not (f : Index → α → α) {name : String} :
    ∀ {secondary : List Index} {maps : OrderedMap String α}, (∀ i ∈ secondary, i.name ≠ name) →
      (secondary.foldl (fun m i => m.adjust i.name (f i)) maps).get? name = maps.get? name
  | [], _, _ => rfl
  | index :: secondary, maps, h => by
    rw [List.foldl_cons, get?_foldl_adjust_of_not f fun i hi => h i (List.mem_cons_of_mem _ hi),
      OrderedMap.get?_adjust, if_neg fun heq => h index List.mem_cons_self (compare_name_eq.1 heq)]

/-- **Going over all indexes changes the map of each by its own change, once.** -/
theorem get?_foldl_adjust (f : Index → α → α) {index : Index} :
    ∀ {secondary : List Index} {maps : OrderedMap String α}, DistinctNames secondary → index ∈ secondary →
      (secondary.foldl (fun m i => m.adjust i.name (f i)) maps).get? index.name = (maps.get? index.name).map (f index)
  | other :: secondary, maps, hnames, h => by
    obtain ⟨hfirst, hnames⟩ := List.pairwise_cons.1 hnames
    rw [List.foldl_cons]
    rcases List.mem_cons.1 h with rfl | h
    · rw [get?_foldl_adjust_of_not f, OrderedMap.get?_adjust, if_pos Std.ReflCmp.compare_self]
      intro i hi heq
      have hlt := hfirst i hi
      rw [compare_name_eq.2 heq.symm] at hlt
      cases hlt
    · rw [get?_foldl_adjust f hnames h, OrderedMap.get?_adjust, if_neg]
      intro heq
      have hlt := hfirst index h
      rw [heq] at hlt
      cases hlt

variable {t : Table} {index : Index}

theorem get?_addEntries (hnames : DistinctNames t.schema.secondary) (h : index ∈ t.schema.secondary) (row : List Cell)
    (key : Key) : (t.addEntries row key).get? index.name =
      (t.indexes.get? index.name).map fun entries => entries.insert (indexEntry index row key) key :=
  get?_foldl_adjust (fun i (entries : OrderedMap Key Key) => entries.insert (indexEntry i row key) key) hnames h

theorem get?_dropEntries (hnames : DistinctNames t.schema.secondary) (h : index ∈ t.schema.secondary) (row : List Cell)
    (key : Key) : (t.dropEntries row key).get? index.name =
      (t.indexes.get? index.name).map fun entries => entries.erase (indexEntry index row key) :=
  get?_foldl_adjust (fun i (entries : OrderedMap Key Key) => entries.erase (indexEntry i row key)) hnames h

/-! ## Colliding -/

/-- **A row collides in a unique index just if its key has no null and some entry begins with it.** -/
theorem collides_iff {entries : OrderedMap Key Key} {row : List Cell} (hm : entries.Ascending)
    (hlong : ∀ e ∈ entries.entries, index.columns.length ≤ e.1.length) :
    collides index entries row = true ↔ index.isUnique = true ∧
      (project index.columns row).any Cell.isNull = false ∧
      ∃ e ∈ entries.entries, Key.orderLeading e.1 (project index.columns row) = .eq := by
  have hlong' : ∀ e ∈ entries.entries, (project index.columns row).length ≤ e.1.length := fun e he => by
    rw [length_project]
    exact hlong e he
  unfold collides
  dsimp only
  rw [Bool.and_eq_true, Bool.and_eq_true, Bool.not_eq_true', and_assoc]
  refine and_congr_right fun _ => and_congr_right fun _ => ?_
  obtain ⟨equal, after, hat, hall, -, heq, hgt⟩ := OrderedMap.entries_split _ hm hlong'
  have hseek : entries.seek (project index.columns row) .greaterOrEqual = (equal ++ after).head?.map (·.1) := by
    rw [← hat]
    rfl
  rw [hseek]
  constructor
  · intro h
    cases hhead : (equal ++ after).head? with
    | none =>
      rw [hhead] at h
      cases h
    | some e =>
      rw [hhead] at h
      refine ⟨e, ?_, beq_iff_eq.1 h⟩
      rw [hall]
      exact List.mem_append_right _ (List.mem_of_mem_head? hhead)
  · rintro ⟨e, he, hee⟩
    rw [hall, List.mem_append, List.mem_append] at he
    rcases he with he | he | he
    · have hlt := beq_iff_eq.1 (List.mem_filter.1 he).2
      have hlt := (Key.order_eq_lt_iff (hlong' e (List.mem_filter.1 he).1)).1 hlt
      rw [hee] at hlt
      cases hlt
    · cases equal with
      | nil => cases he
      | cons x equal =>
        have hx := heq x List.mem_cons_self
        simp [hx]
    · rw [hgt e he] at hee
      cases hee

end Table
end Memory
end RowStore

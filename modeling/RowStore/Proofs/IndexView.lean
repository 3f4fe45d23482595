import RowStore.Memory.Cursor
import RowStore.Proofs.TableInvariant

/-!
# An index as a cursor shows it

A cursor on the clustered index or, with cluster access, on a secondary one shows the table's rows under the entries of
the index: `Table.view`.  Searching and stepping look at the entries only and so do on the view what they do on the index
(`seek_view`, `step_view`), and reading resolves an entry to its row (`read?_view`).
-/
namespace RowStore
namespace OrderedMap

variable {β γ : Type} {m : OrderedMap Key β} {m' : OrderedMap Key γ}

theorem map_fst_filter (p : Key → Bool) (l : List (Key × β)) :
    (l.filter fun e => p e.1).map (·.1) = (l.map (·.1)).filter p := by
  rw [List.filter_map]
  rfl

theorem seek_congr (h : m.keys = m'.keys) (key : Key) (mode : SearchMode) : m.seek key mode = m'.seek key mode := by
  have hafter : (m.atOrAfter key).map (·.1) = (m'.atOrAfter key).map (·.1) := by
    unfold atOrAfter
    rw [map_fst_filter (fun k => compare k key != .lt), map_fst_filter (fun k => compare k key != .lt)]
    exact congrArg _ h
  have hbefore : (m.before key).map (·.1) = (m'.before key).map (·.1) := by
    unfold before
    rw [map_fst_filter (fun k => compare k key == .lt), map_fst_filter (fun k => compare k key == .lt)]
    exact congrArg _ h
  have htake : ((m.atOrAfter key).takeWhile fun e => Key.orderLeading e.1 key == .eq).map (·.1) =
      ((m'.atOrAfter key).takeWhile fun e => Key.orderLeading e.1 key == .eq).map (·.1) := by
    have htake := congrArg (List.takeWhile fun k => Key.orderLeading k key == .eq) hafter
    rw [List.takeWhile_map, List.takeWhile_map] at htake
    exact htake
  cases mode with
  | greaterOrEqual =>
    unfold seek
    rw [← List.head?_map, ← List.head?_map, hafter]
  | greater =>
    have hfind := congrArg (List.find? fun k => Key.orderLeading k key == .gt) hafter
    rw [List.find?_map, List.find?_map] at hfind
    exact hfind
  | less =>
    unfold seek
    rw [← List.getLast?_map, ← List.getLast?_map, hbefore]
  | lessOrEqual =>
    unfold seek
    rw [Option.map_or, Option.map_or, ← List.getLast?_map, ← List.getLast?_map, ← List.getLast?_map,
      ← List.getLast?_map, htake, hbefore]

theorem step_congr (h : m.keys = m'.keys) (place : Key) (direction : Direction) :
    m.step place direction = m'.step place direction := by
  cases direction with
  | asc =>
    unfold step after
    rw [← List.head?_map, ← List.head?_map, map_fst_filter (fun k => compare k place == .gt),
      map_fst_filter (fun k => compare k place == .gt)]
    exact congrArg (fun l => (List.filter _ l).head?) h
  | desc =>
    unfold step before
    rw [← List.getLast?_map, ← List.getLast?_map, map_fst_filter (fun k => compare k place == .lt),
      map_fst_filter (fun k => compare k place == .lt)]
    exact congrArg (fun l => (List.filter _ l).getLast?) h

end OrderedMap

namespace Memory

/-- The columns of an index, in front of those of the primary key; the clustered index has none of its own. -/
def indexColumns : Option Index → List Column
  | none => []
  | some index => index.columns

/-- The columns of an index's entries. -/
def entryColumns (schema : TableSchema) (index : Option Index) : List Column :=
  indexColumns index ++ schema.primary.columns

namespace Table

/-- The rows of a table under the entries of an index. -/
def view (t : Table) : Option Index → OrderedMap Key (List Cell)
  | none => t.rows
  | some index =>
    ⟨((t.indexes.get? index.name).getD .empty).entries.map fun e => (e.1, (t.rows.get? e.2).getD [])⟩

variable {t : Table} {index : Option Index} {entries : Cursor.Entries}

theorem view_some {i : Index} {m : OrderedMap Key Key} (h : t.indexes.get? i.name = some m) :
    t.view (some i) = ⟨m.entries.map fun e => (e.1, (t.rows.get? e.2).getD [])⟩ := by
  unfold view
  dsimp only
  rw [h]
  rfl

theorem keys_view {i : Index} {m : OrderedMap Key Key} (h : t.indexes.get? i.name = some m) :
    (t.view (some i)).keys = m.keys := by
  rw [view_some h]
  unfold OrderedMap.keys
  rw [List.map_map]
  rfl

theorem entriesOf_eq (h : t.Consistent) (hindex : ∀ i ∈ index, i ∈ t.schema.secondary) :
    (index = none ∧ Cursor.entriesOf t index = .ok (.clustered t.rows)) ∨
      ∃ i m, index = some i ∧ t.indexes.get? i.name = some m ∧ m.Ascending ∧
        Cursor.entriesOf t index = .ok (.secondary m) := by
  cases index with
  | none => exact Or.inl ⟨rfl, rfl⟩
  | some i =>
    obtain ⟨m, hget, hascending, -⟩ := h.indexed i (hindex i rfl)
    refine Or.inr ⟨i, m, rfl, hget, hascending, ?_⟩
    unfold Cursor.entriesOf
    dsimp only
    rw [hget]

theorem exists_entriesOf (h : t.Consistent) (hindex : ∀ i ∈ index, i ∈ t.schema.secondary) :
    ∃ entries, Cursor.entriesOf t index = .ok entries := by
  rcases entriesOf_eq h hindex with ⟨-, hentries⟩ | ⟨i, m, -, -, -, hentries⟩
  · exact ⟨_, hentries⟩
  · exact ⟨_, hentries⟩

theorem ascending_view (h : t.Consistent) (hindex : ∀ i ∈ index, i ∈ t.schema.secondary) :
    (t.view index).Ascending := by
  rcases entriesOf_eq h hindex with ⟨rfl, -⟩ | ⟨i, m, rfl, hget, hascending, -⟩
  · exact h.ascending
  · rw [view_some hget]
    exact List.pairwise_map.2 hascending

/-- **A view shows each row once, under its entry.** -/
theorem mem_view (h : t.Consistent) (hindex : ∀ i ∈ index, i ∈ t.schema.secondary) {e : Key × List Cell} :
    e ∈ (t.view index).entries ↔
      (e.1 = project (entryColumns t.schema index) e.2 ∧ ∃ r ∈ t.rows.entries, r.2 = e.2) := by
  unfold entryColumns project
  rw [List.map_append]
  cases index with
  | none =>
    constructor
    · exact fun he => ⟨h.keyed e he, e, he, rfl⟩
    · rintro ⟨hkey, r, hr, hre⟩
      have hr1 := h.keyed r hr
      rw [hre] at hr1
      have her : e = r := Prod.ext (hkey.trans hr1.symm) hre.symm
      exact her ▸ hr
  | some i =>
    obtain ⟨m, hget, hascending, hmem⟩ := h.indexed i (hindex i rfl)
    rw [view_some hget, List.mem_map]
    have hrow : ∀ r ∈ t.rows.entries, t.rows.get? r.1 = some r.2 := fun r hr =>
      OrderedMap.get?_of_mem h.ascending hr Std.ReflCmp.compare_self
    constructor
    · rintro ⟨x, hx, rfl⟩
      obtain ⟨r, hr, rfl⟩ := (hmem x).1 hx
      rw [hrow r hr]
      exact ⟨congrArg _ (h.keyed r hr), r, hr, rfl⟩
    · rintro ⟨hkey, r, hr, hre⟩
      refine ⟨_, (hmem _).2 ⟨r, hr, rfl⟩, ?_⟩
      dsimp only
      rw [hrow r hr]
      refine Prod.ext ?_ hre
      rw [hkey, h.keyed r hr, hre]
      rfl

theorem seek_view (h : t.Consistent) (hindex : ∀ i ∈ index, i ∈ t.schema.secondary)
    (hentries : Cursor.entriesOf t index = .ok entries) (key : Key) (mode : SearchMode) :
    entries.seek key mode = (t.view index).seek key mode := by
  rcases entriesOf_eq h hindex with ⟨rfl, heq⟩ | ⟨i, m, rfl, hget, -, heq⟩
  · rw [hentries] at heq
    cases heq
    rfl
  · rw [hentries] at heq
    cases heq
    exact OrderedMap.seek_congr (keys_view hget).symm key mode

theorem step_view (h : t.Consistent) (hindex : ∀ i ∈ index, i ∈ t.schema.secondary)
    (hentries : Cursor.entriesOf t index = .ok entries) (place : Key) (direction : Direction) :
    entries.step place direction = (t.view index).step place direction := by
  rcases entriesOf_eq h hindex with ⟨rfl, heq⟩ | ⟨i, m, rfl, hget, -, heq⟩
  · rw [hentries] at heq
    cases heq
    rfl
  · rw [hentries] at heq
    cases heq
    exact OrderedMap.step_congr (keys_view hget).symm place direction

theorem size_view (h : t.Consistent) (hindex : ∀ i ∈ index, i ∈ t.schema.secondary)
    (hentries : Cursor.entriesOf t index = .ok entries) : entries.size = (t.view index).size := by
  rcases entriesOf_eq h hindex with ⟨rfl, heq⟩ | ⟨i, m, rfl, hget, -, heq⟩
  · rw [hentries] at heq
    cases heq
    rfl
  · rw [hentries] at heq
    cases heq
    rw [view_some hget]
    exact (List.length_map _).symm

/-- **A read at an entry answers its row.** -/
theorem read?_view (h : t.Consistent) (hindex : ∀ i ∈ index, i ∈ t.schema.secondary)
    (hentries : Cursor.entriesOf t index = .ok entries) {e : Key × List Cell} (he : e ∈ (t.view index).entries) :
    entries.read? t index.isSome e.1 = some e.2 := by
  rcases entriesOf_eq h hindex with ⟨rfl, heq⟩ | ⟨i, m, rfl, hget, hascending, heq⟩
  · rw [hentries] at heq
    cases heq
    exact OrderedMap.get?_of_mem h.ascending he Std.ReflCmp.compare_self
  · rw [hentries] at heq
    cases heq
    obtain ⟨m', hget', -, hmem⟩ := h.indexed i (hindex i rfl)
    rw [hget] at hget'
    cases hget'
    rw [view_some hget, List.mem_map] at he
    obtain ⟨x, hx, rfl⟩ := he
    obtain ⟨r, hr, rfl⟩ := (hmem x).1 hx
    have hrow : t.rows.get? r.1 = some r.2 := OrderedMap.get?_of_mem h.ascending hr Std.ReflCmp.compare_self
    show ((m.get? _).bind fun primaryKey => t.rows.get? primaryKey) = _
    rw [OrderedMap.get?_of_mem hascending hx Std.ReflCmp.compare_self, Option.bind_some, hrow]
    rfl

end Table
end Memory
end RowStore

import RowStore.Memory.Table
import RowStore.Proofs.BuiltSchema
import RowStore.Proofs.CellOrder
import RowStore.Proofs.StoredCells

/-!
# The rows of a table of integers, texts and byte arrays

Such a table stores in each column cells of that column (`StoresRow`).  A stored row reads back as the row of its values
(`decodeRow_of_stores`), a row agrees with it on some columns just if it has the same encoding there (`agreeOn_iff`), and
two stored rows have equal keys just if they have the same ones (`order_project_eq_iff`).
-/
namespace RowStore

open Memory (project)

/-- A row has a cell of each column. -/
abbrev StoresRow (columns : List Column) (cells : List Cell) : Prop := List.Forall₂ Column.Stores columns cells

namespace TableSchema

/-- All columns are of integers, texts or byte arrays. -/
def IsBasic (schema : TableSchema) : Prop := ∀ c ∈ schema.columns, c.IsBasic

instance (schema : TableSchema) : Decidable schema.IsBasic := inferInstanceAs (Decidable (∀ c ∈ schema.columns, _))

/-- The row that stored cells read back as. -/
def rowOf (schema : TableSchema) (cells : List Cell) : Row :=
  ⟨(schema.columns.zip cells).map fun (c, cell) => (c.name, cell.value)⟩

end TableSchema

variable {schema : TableSchema} {cells : List Cell} {row : Row}

/-! ## Cells and columns -/

theorem TableSchema.WellFormed.cell (h : schema.WellFormed) {R : Column → Cell → Prop}
    (hcells : List.Forall₂ R schema.columns cells) {c : Column} (hc : c ∈ schema.columns) :
    ∃ cell, cells[c.ordinal]? = some cell ∧ R c cell := by
  obtain ⟨i, hi, rfl⟩ := List.getElem_of_mem hc
  have hordinal := h.ordinal i _ (List.getElem?_eq_getElem hi)
  have hi' : i < cells.length := hcells.length_eq ▸ hi
  refine ⟨cells[i], ?_, ?_⟩
  · rw [hordinal, List.getElem?_eq_getElem hi']
  · exact (List.forall₂_iff_get.1 hcells).2 i hi hi'

theorem stores_of_encodes (h : List.Forall₂ (fun c cell => Column.Encodes c (row.value c.name) cell) schema.columns cells) :
    StoresRow schema.columns cells :=
  h.imp fun _ _ he => he.stores

/-- **The encoding of a row, column by column.** -/
theorem encodes_of_encodeRow (hbasic : schema.IsBasic) (h : schema.encodeRow row = .ok cells) :
    List.Forall₂ (fun c cell => Column.Encodes c (row.value c.name) cell) schema.columns cells := by
  have hcells := mapM_ok_iff.1 h
  rw [List.forall₂_iff_get] at hcells ⊢
  refine ⟨hcells.1, fun i hi hi' => ?_⟩
  exact Column.encodes_of_encode (hbasic _ (List.get_mem _ _)) (hcells.2 i hi hi')

theorem stores_of_encodeRow (hbasic : schema.IsBasic) (h : schema.encodeRow row = .ok cells) :
    StoresRow schema.columns cells :=
  stores_of_encodes (encodes_of_encodeRow hbasic h)

/-! ## Keys of stored rows -/

theorem order_project_eq_iff (h : schema.WellFormed) {a b : List Cell} (ha : StoresRow schema.columns a)
    (hb : StoresRow schema.columns b) : ∀ {columns : List Column}, (∀ c ∈ columns, c ∈ schema.columns) →
      (Key.order (project columns a) (project columns b) = .eq ↔ project columns a = project columns b)
  | [], _ => ⟨fun _ => rfl, fun _ => rfl⟩
  | c :: columns, hcolumns => by
    obtain ⟨x, hx, hxc⟩ := h.cell ha (hcolumns c List.mem_cons_self)
    obtain ⟨y, hy, hyc⟩ := h.cell hb (hcolumns c List.mem_cons_self)
    have ih := order_project_eq_iff h ha hb fun d hd => hcolumns d (List.mem_cons_of_mem _ hd)
    unfold project at ih ⊢
    rw [List.map_cons, List.map_cons, hx, hy]
    constructor
    · intro heq
      obtain ⟨hxy, hrest⟩ := Ordering.then_eq_eq.1 (List.compareLex_cons_cons.symm.trans heq)
      rw [ih.1 hrest, Column.eq_of_order hxc hyc hxy]
    · intro heq
      rw [heq]
      exact Std.ReflCmp.compare_self

/-! ## Reading back -/

theorem Row.insert_of_not_mem : ∀ {entries : List (String × Value)} {name : String} {value : Value},
    (∀ e ∈ entries, e.1 ≠ name) → Row.setEntry name value entries = entries ++ [(name, value)]
  | [], _, _, _ => rfl
  | e :: entries, name, value, h => by
    unfold Row.setEntry
    rw [if_neg (by simpa using h e List.mem_cons_self), List.cons_append,
      Row.insert_of_not_mem fun x hx => h x (List.mem_cons_of_mem _ hx)]

/-- Columns of new names are appended one after the other. -/
theorem foldlM_decode {tuple : Tuple} (hlive : tuple.disposed = false) : ∀ {columns : List Column} {cells : List Cell}
    {row : Row}, (∀ c ∈ columns, c.IsBasic) → (columns.map (·.name)).Nodup →
      (∀ c ∈ columns, ∀ e ∈ row.entries, e.1 ≠ c.name) →
      List.Forall₂ (fun (c : Column) cell => tuple.cells[c.ordinal]? = some cell ∧ c.Stores cell) columns cells →
      columns.foldlM (fun row c => return row.insert c.name (← c.decode tuple)) row =
        (.ok ⟨row.entries ++ (columns.zip cells).map fun (c, cell) => (c.name, cell.value)⟩ : Except Error Row)
  | [], _, row, _, _, _, h => by
    cases h
    simp [pure, Except.pure]
  | c :: columns, _, row, hbasic, hnames, hnew, h => by
    obtain ⟨cell, cells, ⟨hslot, hcell⟩, hrest, rfl⟩ := List.forall₂_cons_left_iff.1 h
    rw [List.map_cons, List.nodup_cons] at hnames
    have hinsert : row.insert c.name cell.value = ⟨row.entries ++ [(c.name, cell.value)]⟩ := by
      unfold Row.insert
      rw [Row.insert_of_not_mem (hnew c List.mem_cons_self)]
    have hnew' : ∀ d ∈ columns, ∀ e ∈ (row.insert c.name cell.value).entries, e.1 ≠ d.name := by
      intro d hd e he
      rw [hinsert, List.mem_append, List.mem_singleton] at he
      rcases he with he | rfl
      · exact hnew d (List.mem_cons_of_mem _ hd) e he
      · intro heq
        have hname : c.name = d.name := heq
        exact hnames.1 (hname ▸ List.mem_map_of_mem hd)
    have ih := foldlM_decode hlive (fun d hd => hbasic d (List.mem_cons_of_mem _ hd)) hnames.2 hnew' hrest
    rw [List.foldlM_cons, Column.decode_of_stores (hbasic c List.mem_cons_self) hlive hslot hcell]
    refine ih.trans ?_
    rw [hinsert]
    simp

/-- **A stored row reads back as the row of its values.** -/
theorem decodeRow_of_stores (hbasic : schema.IsBasic) (h : schema.WellFormed) {tuple : Tuple}
    (hlive : tuple.disposed = false) (hcells : tuple.cells = cells) (hstores : StoresRow schema.columns cells) :
    schema.decodeRow tuple = .ok (schema.rowOf cells) := by
  refine foldlM_decode hlive hbasic h.columnNames (fun _ _ e he => absurd he List.not_mem_nil) ?_
  obtain ⟨hlength, hget⟩ := List.forall₂_iff_get.1 hstores
  rw [hcells, List.forall₂_iff_get]
  refine ⟨hlength, fun i hi hi' => ⟨?_, hget i hi hi'⟩⟩
  have hordinal := h.ordinal i _ (List.getElem?_eq_getElem hi)
  rw [List.get_eq_getElem, hordinal, List.getElem?_eq_getElem hi']
  rfl

theorem find?_zip_of_nodup : ∀ {columns : List Column} {cells : List Cell} {i : Nat} {c : Column} {cell : Cell},
    (columns.map (·.name)).Nodup → columns[i]? = some c → cells[i]? = some cell →
      ((columns.zip cells).map fun (c, cell) => (c.name, cell.value)).find? (fun e => e.1 == c.name) =
        some (c.name, cell.value)
  | [], _, _, _, _, _, hc, _ => by cases hc
  | _ :: _, [], _, _, _, _, _, hcell => by cases hcell
  | d :: columns, x :: cells, 0, c, cell, _, hc, hcell => by
    cases hc
    cases hcell
    simp
  | d :: columns, x :: cells, i + 1, c, cell, hnames, hc, hcell => by
    rw [List.map_cons, List.nodup_cons] at hnames
    rw [List.getElem?_cons_succ] at hc hcell
    have hne : d.name ≠ c.name := fun heq => hnames.1 (heq ▸ List.mem_map_of_mem (List.mem_of_getElem? hc))
    rw [List.zip_cons_cons, List.map_cons, List.find?_cons_of_neg (by simpa using hne)]
    exact find?_zip_of_nodup hnames.2 hc hcell

theorem value_rowOf (h : schema.WellFormed) {c : Column} (hc : c ∈ schema.columns) {cell : Cell}
    (hcell : cells[c.ordinal]? = some cell) : (schema.rowOf cells).value c.name = cell.value := by
  obtain ⟨i, hi, rfl⟩ := List.getElem_of_mem hc
  have hget := List.getElem?_eq_getElem hi
  rw [h.ordinal i _ hget] at hcell
  unfold Row.value Row.get? TableSchema.rowOf
  rw [find?_zip_of_nodup h.columnNames hget hcell]
  rfl

/-! ## Agreeing with a stored row -/

/-- **A row agrees with a stored one on some columns just if it has the same encoding there.** -/
theorem agreeOn_iff (h : schema.WellFormed) {stored : List Cell} (hrow : List.Forall₂
    (fun c cell => Column.Encodes c (row.value c.name) cell) schema.columns cells)
    (hstored : StoresRow schema.columns stored) : ∀ {columns : List Column}, (∀ c ∈ columns, c ∈ schema.columns) →
      (Row.agreeOn columns row (schema.rowOf stored) = true ↔ project columns cells = project columns stored)
  | [], _ => ⟨fun _ => rfl, fun _ => rfl⟩
  | c :: columns, hcolumns => by
    have hc := hcolumns c List.mem_cons_self
    obtain ⟨x, hx, hxc⟩ := h.cell hrow hc
    obtain ⟨y, hy, hyc⟩ := h.cell hstored hc
    have ih := agreeOn_iff h hrow hstored fun d hd => hcolumns d (List.mem_cons_of_mem _ hd)
    unfold Row.agreeOn project at ih ⊢
    rw [List.all_cons, Bool.and_eq_true, ih, value_rowOf h hc hy, hxc.agree_iff hyc, List.map_cons, List.map_cons,
      hx, hy, List.cons.injEq]
    rfl

/-! ## The key of a search -/

theorem project_append (columns columns' : List Column) (cells : List Cell) :
    project (columns ++ columns') cells = project columns cells ++ project columns' cells := List.map_append

/-- Some columns of a row are encoded as they are in the whole row. -/
theorem encodeColumns_eq (h : schema.WellFormed) (hrow : schema.encodeRow row = .ok cells) {columns : List Column}
    (hcolumns : ∀ c ∈ columns, c ∈ schema.columns) : encodeColumns columns row = .ok (project columns cells) := by
  unfold encodeColumns
  rw [mapM_ok_iff]
  unfold project
  rw [List.forall₂_map_right_iff, List.forall₂_same]
  intro c hc
  obtain ⟨cell, hcell, hencode⟩ := h.cell (mapM_ok_iff.1 hrow) (hcolumns c hc)
  rw [hcell, hencode]
  rfl

/-- **A search key is the encoding of the leading columns that are not null.** -/
theorem encodeLeading_eq (h : schema.WellFormed) (hrow : schema.encodeRow row = .ok cells) {columns : List Column}
    (hcolumns : ∀ c ∈ columns, c ∈ schema.columns) :
    encodeLeading columns row = .ok (project (leadingColumns columns row) cells) :=
  encodeColumns_eq h hrow fun c hc => hcolumns c ((List.takeWhile_sublist _).subset hc)

theorem length_encodeLeading_le {columns : List Column} {key : Key} (h : encodeLeading columns row = .ok key) :
    key.length ≤ columns.length := by
  rw [← (mapM_ok_iff.1 h).length_eq]
  exact (List.takeWhile_sublist _).length_le

theorem leadingColumns_eq_self (h : schema.WellFormed) (hrow : List.Forall₂
    (fun c cell => Column.Encodes c (row.value c.name) cell) schema.columns cells) {columns : List Column}
    (hcolumns : ∀ c ∈ columns, c ∈ schema.columns) (hnull : (project columns cells).any Cell.isNull = false) :
    leadingColumns columns row = columns := by
  unfold leadingColumns
  rw [List.takeWhile_eq_self_iff]
  intro c hc
  obtain ⟨cell, hcell, hencodes⟩ := h.cell hrow (hcolumns c hc)
  have hcellNull := List.any_eq_false.1 hnull cell (List.mem_map.2 ⟨c, hc, by rw [hcell]; rfl⟩)
  rw [← hencodes.isNull_eq]
  simpa using hcellNull

end RowStore

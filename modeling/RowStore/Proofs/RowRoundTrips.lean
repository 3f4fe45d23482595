import RowStore.Proofs.Agreement
import RowStore.Proofs.StoredRows

/-!
# Rows survive their encoding

A column sees of a value only its view in the column's type, and a cell reads back as a value with the same view.  So what
a cell reads back as has that cell for its encoding again (`Column.encode_value`), bounds of width and length included.  A
row that has been encoded therefore reads back as a row of all columns, null where it was null or left out and agreeing
with it elsewhere, and that row has the same encoding (`rows_survive_encoding`).
-/
namespace RowStore

namespace Column

variable {c : Column} {v w : Value} {cell : Cell}

/-! ## A value counts by its view -/

theorem encodeInteger_congr {n : Int} (hv : v.integer? = some n) (hw : w.integer? = some n) :
    c.encodeInteger v = c.encodeInteger w := by
  unfold encodeInteger
  rw [hv, hw]

theorem encodeText_congr {s : String} (hv : v.text? = some s) (hw : w.text? = some s) :
    c.encodeText v = c.encodeText w := by
  unfold encodeText
  rw [hv, hw]

theorem encodeBytes_congr {b : List UInt8} (hv : v.bytes? = some b) (hw : w.bytes? = some b) :
    c.encodeBytes v = c.encodeBytes w := by
  unfold encodeBytes
  rw [hv, hw]

theorem encode_of_isInteger (htype : c.type.isInteger = true) (hnull : v.isNull = false) :
    c.encode v = c.encodeInteger v := by
  unfold encode
  rw [hnull, if_neg Bool.false_ne_true, if_pos htype]

theorem encode_of_isString (htype : c.type.isString = true) (hnull : v.isNull = false) :
    c.encode v = c.encodeText v := by
  obtain ⟨hinteger, -, -⟩ := kinds_of_isString htype
  unfold encode
  rw [hnull, if_neg Bool.false_ne_true, hinteger, if_neg Bool.false_ne_true, if_pos htype]

theorem encode_of_isByteArray (htype : c.type.isByteArray = true) (hnull : v.isNull = false) :
    c.encode v = c.encodeBytes v := by
  obtain ⟨hinteger, hstring, -⟩ := kinds_of_isByteArray htype
  unfold encode
  rw [hnull, if_neg Bool.false_ne_true, hinteger, if_neg Bool.false_ne_true, hstring, if_neg Bool.false_ne_true,
    if_pos htype]

/-- **What a cell reads back as is encoded as that cell again.** -/
theorem encode_value (hbasic : c.IsBasic) (h : c.encode v = .ok cell) : c.encode cell.value = .ok cell := by
  cases encodes_of_encode hbasic h with
  | null hnull => rfl
  | int n hnull htype _ hview _ =>
    rw [encode_of_isInteger htype hnull] at h
    rw [encode_of_isInteger htype rfl, ← h]
    exact encodeInteger_congr rfl hview
  | uint n hnull htype _ hview _ =>
    rw [encode_of_isInteger htype hnull] at h
    rw [encode_of_isInteger htype rfl, ← h]
    exact encodeInteger_congr rfl hview
  | text s hnull htype hview =>
    rw [encode_of_isString htype hnull] at h
    rw [encode_of_isString htype rfl, ← h]
    exact encodeText_congr rfl hview
  | bytes b hnull htype hview =>
    rw [encode_of_isByteArray htype hnull] at h
    rw [encode_of_isByteArray htype rfl, ← h]
    exact encodeBytes_congr rfl hview

end Column

/-! ## Rows -/

variable {schema : TableSchema} {cells : List Cell} {data : Row}

theorem columns_rowOf (hlength : schema.columns.length = cells.length) :
    (schema.rowOf cells).columns = schema.columns.map (·.name) := by
  unfold Row.columns TableSchema.rowOf
  rw [List.map_map]
  calc (schema.columns.zip cells).map (fun x => x.1.name)
      = ((schema.columns.zip cells).map Prod.fst).map (·.name) := (List.map_map ..).symm
    _ = schema.columns.map (·.name) := by rw [List.map_fst_zip hlength.le]

theorem get?_rowOf (h : schema.WellFormed) {c : Column} (hc : c ∈ schema.columns) {cell : Cell}
    (hcell : cells[c.ordinal]? = some cell) : (schema.rowOf cells).get? c.name = some cell.value := by
  obtain ⟨i, hi, rfl⟩ := List.getElem_of_mem hc
  have hget := List.getElem?_eq_getElem hi
  rw [h.ordinal i _ hget] at hcell
  unfold Row.get? TableSchema.rowOf
  rw [find?_zip_of_nodup h.columnNames hget hcell]
  rfl

/-- **The row of an encoding has that encoding.** -/
theorem encodeRow_rowOf (h : schema.WellFormed) (hbasic : schema.IsBasic) (hencode : schema.encodeRow data = .ok cells) :
    schema.encodeRow (schema.rowOf cells) = .ok cells := by
  have hcells := mapM_ok_iff.1 hencode
  refine mapM_ok_iff.2 (List.forall₂_iff_get.2 ⟨hcells.length_eq, fun i hi hi' => ?_⟩)
  have hc : schema.columns.get ⟨i, hi⟩ ∈ schema.columns := List.get_mem _ _
  have hordinal := h.ordinal i _ (List.getElem?_eq_getElem hi)
  have hcell : cells[(schema.columns.get ⟨i, hi⟩).ordinal]? = some (cells.get ⟨i, hi'⟩) := by
    rw [List.get_eq_getElem, hordinal]
    exact List.getElem?_eq_getElem hi'
  rw [value_rowOf h hc hcell]
  exact Column.encode_value (hbasic _ hc) ((List.forall₂_iff_get.1 hcells).2 i hi hi')

/-- What a row has become of which the columns of a table were stored and read back: it has all of them in table order,
each null just if it was null or left out before, and a value that agrees with the one before otherwise. -/
structure TableSchema.Restores (schema : TableSchema) (data row : Row) : Prop where
  columns : row.columns = schema.columns.map (·.name)
  null_iff : ∀ c ∈ schema.columns, row.get? c.name = some .null ↔ data.get? c.name = none ∨ data.get? c.name = some .null
  agree : ∀ c ∈ schema.columns, ∀ v, data.get? c.name = some v → v ≠ .null →
    ∃ w, row.get? c.name = some w ∧ c.type.agree v w = true ∧ c.type.agree w v = true

theorem Value.eq_null_iff {v : Value} : v = .null ↔ v.isNull = true := by cases v <;> simp [isNull]

theorem Row.value_isNull_iff (row : Row) (name : String) :
    (row.value name).isNull = true ↔ row.get? name = none ∨ row.get? name = some .null := by
  unfold value
  cases row.get? name with
  | none => simp [Value.isNull]
  | some v => simp [← Value.eq_null_iff]

/-- The cells that a row is encoded as read back as its values. -/
theorem restores_rowOf (h : schema.WellFormed) (hbasic : schema.IsBasic) (hencode : schema.encodeRow data = .ok cells) :
    schema.Restores data (schema.rowOf cells) := by
  have hcells := encodes_of_encodeRow hbasic hencode
  refine ⟨columns_rowOf hcells.length_eq, fun c hc => ?_, fun c hc v hv hnull => ?_⟩
  · obtain ⟨cell, hcell, hencodes⟩ := h.cell hcells hc
    rw [get?_rowOf h hc hcell, Option.some.injEq, Value.eq_null_iff, Cell.isNull_value, hencodes.isNull_eq]
    exact data.value_isNull_iff c.name
  · obtain ⟨cell, hcell, hencodes⟩ := h.cell hcells hc
    have hvalue : data.value c.name = v := by
      unfold Row.value
      rw [hv]
      rfl
    rw [hvalue] at hencodes
    have hagree : c.type.agree v cell.value = true := (hencodes.agree_iff hencodes.stores).2 rfl
    exact ⟨cell.value, get?_rowOf h hc hcell, hagree, c.type.isAgreement_agree.symm hagree⟩

/-- **Rows survive their encoding.**  A row that a built table of integers, texts and byte arrays can encode reads back from
the cells: all columns in table order, null where the row is null or leaves the column out, and a value that agrees with
the row's elsewhere.  What has been read back has the very same encoding. -/
theorem rows_survive_encoding {d : Declaration} (hbuild : d.build = .ok schema) (hbasic : schema.IsBasic)
    (hencode : schema.encodeRow data = .ok cells) {tuple : Tuple} (hlive : tuple.disposed = false)
    (hcells : tuple.cells = cells) :
    ∃ row, schema.decodeRow tuple = .ok row ∧ schema.Restores data row ∧ schema.encodeRow row = .ok cells := by
  have hschema := TableSchema.wellFormed_of_build hbuild
  exact ⟨schema.rowOf cells, decodeRow_of_stores hbasic hschema hlive hcells (stores_of_encodeRow hbasic hencode),
    restores_rowOf hschema hbasic hencode, encodeRow_rowOf hschema hbasic hencode⟩

/-! ## A table of parcels -/

def parcelDeclaration : Declaration where
  name := "parcels"
  columns := [⟨"id", .int, 2, [.notNull, .unsigned]⟩, ⟨"label", .varchar, 3, []⟩, ⟨"seal", .varbinary, 4, []⟩,
    ⟨"shelf", .int, 1, []⟩]
  keys := [⟨"key", "id", true, true⟩]

def parcels : TableSchema where
  name := "parcels"
  columns := parcelDeclaration.placedColumns
  primary := ⟨"key", [⟨"id", .int, 2, [.notNull, .unsigned], 0⟩], true, true⟩
  secondary := []

/-- A parcel with a number in text, a number for a label, a seal in text and no shelf; it tells more than is asked. -/
def parcel : Row :=
  ⟨[("seal", .text "ab"), ("sender", .text "ada"), ("label", .uint 12), ("id", .text " 65535 "), ("shelf", .null)]⟩

theorem rows_survive_encoding_parcel :
    ∃ row, parcels.decodeRow ⟨.clustered, parcels.columns, [.uint 65535, .text "12", .bytes [97, 98], .null], false⟩ =
        .ok row ∧ parcels.Restores parcel row ∧
      parcels.encodeRow row = .ok [.uint 65535, .text "12", .bytes [97, 98], .null] :=
  rows_survive_encoding (d := parcelDeclaration) (by cbv) (by decide) (by cbv) rfl rfl

end RowStore

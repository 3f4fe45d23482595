import RowStore.Codec.Coercion
import RowStore.Row

/-!
# Rows and their encodings

A row is encoded column by column, in the order of a table or of an index.  A key for positioning takes only the leading
columns that have a value.
-/
namespace RowStore

/-- Encodes a row in the order of the given columns; a column that the row leaves out is null. -/
def encodeColumns (columns : List Column) (row : Row) : Except Error (List Cell) :=
  columns.mapM fun c => c.encode (row.value c.name)

/-- The payload of a write: every column of the table. -/
def TableSchema.encodeRow (schema : TableSchema) (row : Row) : Except Error (List Cell) :=
  encodeColumns schema.columns row

/-- The columns, from the first on, for which a row has a value other than null. -/
def leadingColumns (columns : List Column) (row : Row) : List Column :=
  columns.takeWhile fun c => !(row.value c.name).isNull

/-- The key that positions a cursor: the encoding of the leading columns that have a value. -/
def encodeLeading (columns : List Column) (row : Row) : Except Error Key :=
  encodeColumns (leadingColumns columns row) row

/-- Makes a row of all columns of a table, in table order. -/
def TableSchema.decodeRow (schema : TableSchema) (tuple : Tuple) : Except Error Row :=
  schema.columns.foldlM (fun row c => return row.insert c.name (← c.decode tuple)) Row.empty

/-- Whether two rows agree on the given columns, each by the equality of its type; a missing column reads as null.  An
engine's search only comes near a key, so what it finds is confirmed by this. -/
def Row.agreeOn (columns : List Column) (expected found : Row) : Bool :=
  columns.all fun c => c.type.agree (expected.value c.name) (found.value c.name)

end RowStore

/-!
# Schemas

The layout of a table: its columns, the clustered index that orders its rows, and its secondary indexes.  A schema comes
out of `Declaration.build`, which checks it, and does not change afterwards.
-/
namespace RowStore

/-- The logical type of a column. -/
inductive ColumnType
  | varchar
  | char
  | binary
  | varbinary
  | blob
  | int
  | sys
  | float
  | double
  | decimal
  | varcharAnyCharset
  | charAnyCharset
  deriving DecidableEq, Inhabited

namespace ColumnType

def isByteArray : ColumnType → Bool
  | binary | varbinary | blob => true
  | _ => false

def isString : ColumnType → Bool
  | char | varchar | charAnyCharset | varcharAnyCharset => true
  | _ => false

def isInteger : ColumnType → Bool
  | int => true
  | _ => false

/-- Columns of numbers that need not be integers. -/
def isDecimalFamily : ColumnType → Bool
  | float | double | decimal => true
  | _ => false

def name : ColumnType → String
  | varchar => "Varchar"
  | char => "Char"
  | binary => "Binary"
  | varbinary => "Varbinary"
  | blob => "Blob"
  | int => "Int"
  | sys => "Sys"
  | float => "Float"
  | double => "Double"
  | decimal => "Decimal"
  | varcharAnyCharset => "VarcharAnyCharset"
  | charAnyCharset => "CharAnyCharset"

end ColumnType

/-- What a column may be declared with. -/
inductive Attribute
  | notNull
  | unsigned
  | custom
  deriving DecidableEq, Inhabited

/-- The bits of an integer of a declared length: those of one to eight bytes, whatever the length. -/
def integerBits (length : Nat) : Nat := 8 * min (max length 1) 8

theorem integerBits_zero : integerBits 0 = 8 := rfl

theorem integerBits_of_le {length : Nat} (hpos : 1 ≤ length) (hle : length ≤ 8) : integerBits length = 8 * length := by
  rw [integerBits, Nat.max_eq_left hpos, Nat.min_eq_left hle]

theorem integerBits_of_ge {length : Nat} (h : 8 ≤ length) : integerBits length = 64 := by
  rw [integerBits, Nat.max_eq_left (Nat.le_trans (by decide) h), Nat.min_eq_right h]

/-- A column; its ordinal is its place in the table. -/
structure Column where
  name : String
  type : ColumnType
  /-- The greatest length of a text or byte array, zero for none; of an integer, its width in bytes. -/
  length : Nat
  attributes : List Attribute
  ordinal : Nat
  deriving DecidableEq, Inhabited

namespace Column

def isNotNull (column : Column) : Bool := column.attributes.contains .notNull

def isUnsigned (column : Column) : Bool := column.attributes.contains .unsigned

def bits (column : Column) : Nat := integerBits column.length

end Column

/-- An index: its key columns in order. -/
structure Index where
  name : String
  columns : List Column
  primary : Bool
  unique : Bool
  deriving DecidableEq, Inhabited

/-- The clustered index is unique in any case. -/
def Index.isUnique (index : Index) : Bool := index.primary || index.unique

/-- The layout of a table.  The secondary indexes are in the order of their names. -/
structure TableSchema where
  name : String
  columns : List Column
  primary : Index
  secondary : List Index
  deriving DecidableEq, Inhabited

namespace TableSchema

def column? (schema : TableSchema) (name : String) : Option Column :=
  schema.columns.find? fun c => c.name == name

def secondary? (schema : TableSchema) (name : String) : Option Index :=
  schema.secondary.find? fun i => i.name == name

end TableSchema
end RowStore

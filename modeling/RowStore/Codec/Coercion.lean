import RowStore.Cell
import RowStore.Error
import RowStore.Text.Blank
import RowStore.Tuple

/-!
# Coercion

A column takes any value that has a view in its type: an integer column takes the text `"7"`, the float `7.0` and the
decimal `7.00` alike.  Views are partial functions from values; `Column.encode` adds the bounds of the column, and
`ColumnType.agree` compares two values through the same views.
-/
namespace RowStore

namespace Value

/-- The integer that a value is or writes.  Text that writes no plain integer may still write an integral decimal, such
as `"7.00"` or `"1e3"`. -/
def integer? : Value → Option Int
  | int n => some n.toInt
  | uint n => some n.toNat
  | bigInt n => some n
  | float x => x.toInt?
  | decimal x => x.toInt?
  | text s =>
    let s := trimBlank s.toList
    (RowStore.integer? s).or ((Decimal.ofText? s).bind Decimal.toInt?)
  | _ => none

/-- The decimal that a value is or writes.  A float is taken by its plain text, so `0.1` is exactly a tenth. -/
def decimal? : Value → Option Decimal
  | int n => Decimal.ofInt? n.toInt
  | uint n => Decimal.ofInt? n.toNat
  | bigInt n => Decimal.ofInt? n
  | float x => if x.isFinite then Decimal.ofEitherText? (Binary64.plain.render x).toList else none
  | decimal x => some x
  | text s => Decimal.ofEitherText? (trimBlank s.toList)
  | _ => none

/-- The double nearest to a number or to what a text writes; long integers are rounded by their leading bits. -/
def double? : Value → Option Binary64
  | int n => some (Binary64.ofInt n.toInt)
  | uint n => some (Binary64.ofInt n.toNat)
  | bigInt n => some (Binary64.ofLongInt n)
  | float x => some x
  | decimal x => some x.toBinary64
  | text s => Binary64.ofText? (trimBlank s.toList)
  | _ => none

/-- A text, bytes that are the UTF-8 of one, or the text of a number. -/
def text? : Value → Option String
  | null => none
  | bytes b => String.fromUTF8? ⟨b.toArray⟩
  | v => some v.toText

def bytes? : Value → Option (List UInt8)
  | bytes b => some b
  | text s => some s.toUTF8.data.toList
  | _ => none

end Value

namespace Column

def reject {α : Type} (column : Column) (cause : Rejection) : Except Error α := .error (.coercion column.name cause)

/-- An integer within the width and sign of the column. -/
def encodeInteger (column : Column) (value : Value) : Except Error Cell :=
  match value.integer? with
  | none => column.reject (.notInteger value)
  | some n =>
    if column.isUnsigned then
      if FitsUnsigned column.bits n then .ok (.uint (UInt64.ofNat n.toNat))
      else column.reject (.outOfRange n column.bits true)
    else if FitsSigned column.bits n then .ok (.int (Int64.ofInt n))
    else column.reject (.outOfRange n column.bits false)

/-- A text of at most as many characters as the column declares; zero declares no bound. -/
def encodeText (column : Column) (value : Value) : Except Error Cell :=
  match value.text? with
  | none => column.reject .notUtf8
  | some s =>
    if 0 < column.length ∧ column.length < s.length then column.reject (.tooManyCharacters s.length column.length)
    else .ok (.text s)

/-- Bytes, at most as many as the column declares; a blob is not bounded. -/
def encodeBytes (column : Column) (value : Value) : Except Error Cell :=
  match value.bytes? with
  | none => column.reject (.notBytes value)
  | some b =>
    if column.type ≠ .blob ∧ 0 < column.length ∧ column.length < b.length then
      column.reject (.tooManyBytes b.length column.length)
    else .ok (.bytes b)

/-- Converts a value to the encoding of a column.  Null passes: whether a column may be null is checked on writing. -/
def encode (column : Column) (value : Value) : Except Error Cell :=
  if value.isNull then .ok .null
  else if column.type.isInteger then column.encodeInteger value
  else if column.type.isString then column.encodeText value
  else if column.type.isByteArray then column.encodeBytes value
  else
    match column.type with
    | .float => (value.double?.map fun x => .ok (.double x.toSingle)).getD (column.reject (.notNumeric value))
    | .double => (value.double?.map fun x => .ok (.double x)).getD (column.reject (.notNumeric value))
    | .decimal => (value.decimal?.map fun x => .ok (.decimal x)).getD (column.reject (.notDecimal value))
    | type => .error (.unsupportedType type)

/-- Reads the column's cell back.  Only integers, texts and bytes can be read. -/
def decode (column : Column) (tuple : Tuple) : Except Error Value :=
  if column.type.isByteArray then tuple.readBytes column.ordinal
  else if column.type.isString then tuple.readString column.ordinal
  else if column.type.isInteger then tuple.readInt column.ordinal column.length (!column.isUnsigned)
  else .error (.unsupportedType column.type)

end Column

def bothSame {α : Type} (same : α → α → Bool) : Option α → Option α → Bool
  | some a, some b => same a b
  | _, _ => false

/-- Equality of two values in a column of a type.  Null equals null alone, and a value without a view in the type
equals none. -/
def ColumnType.agree (type : ColumnType) (a b : Value) : Bool :=
  if a.isNull || b.isNull then a.isNull && b.isNull
  else if type.isInteger then bothSame (· == ·) a.integer? b.integer?
  else if type.isDecimalFamily then bothSame Decimal.sameNumber a.decimal? b.decimal?
  else if type.isString then bothSame (· == ·) a.text? b.text?
  else if type.isByteArray then bothSame (· == ·) a.bytes? b.bytes?
  else a.same b

end RowStore

import RowStore.Number.Binary64.Text
import RowStore.Number.Decimal.Text
import RowStore.Number.Width

/-!
# Values

What a caller puts into a row and takes out of it.  A value has a form of its own, which need not be that of the column
it goes to: `Codec/Coercion` converts.
-/
namespace RowStore

/-- A value of the caller's. -/
inductive Value
  | null
  | int (n : Int64)
  | uint (n : UInt64)
  | bigInt (n : Int)
  | float (x : Binary64)
  | decimal (x : Decimal)
  | text (s : String)
  | bytes (b : List UInt8)
  deriving DecidableEq, Inhabited

def bracketed (items : List String) : String := "[" ++ String.intercalate ", " items ++ "]"

def bytesText (b : List UInt8) : String := bracketed (b.map fun x => toString x.toNat)

namespace Value

def isNull : Value → Bool
  | null => true
  | _ => false

/-- An integer as a 64-bit signed one, if it is in range. -/
def int64? (n : Int) : Option Int64 := if FitsSigned 64 n then some (Int64.ofInt n) else none

/-- An integer as a 64-bit unsigned one, if it is in range. -/
def uint64? (n : Int) : Option UInt64 := if FitsUnsigned 64 n then some (UInt64.ofNat n.toNat) else none

/-- The 64-bit signed integer that an exact numeric value is, if it is one.  Floats and texts have none. -/
def asInt64 : Value → Option Int64
  | int n => some n
  | uint n => int64? n.toNat
  | bigInt n => int64? n
  | decimal x => x.toInt?.bind int64?
  | _ => none

def asText : Value → Option String
  | text s => some s
  | _ => none

def asBytes : Value → Option (List UInt8)
  | bytes b => some b
  | _ => none

/-- Equality of values of one form.  Values of different forms differ, floats and decimals compare as numbers. -/
def same : Value → Value → Bool
  | null, null => true
  | int a, int b => a == b
  | uint a, uint b => a == b
  | bigInt a, bigInt b => a == b
  | float a, float b => a.sameNumber b
  | decimal a, decimal b => a.sameNumber b
  | text a, text b => a == b
  | bytes a, bytes b => a == b
  | _, _ => false

def toText : Value → String
  | null => "null"
  | int n => toString n.toInt
  | uint n => toString n.toNat
  | bigInt n => toString n
  | float x => Binary64.plain.render x
  | decimal x => x.toText
  | text s => s
  | bytes b => bytesText b

end Value
end RowStore

import RowStore.Number.Decimal
import RowStore.Value

/-!
# Cells

The physical encoding of a column value, and the order in which an index keeps its entries: null first, then by kind,
then by value.  Signed and unsigned integers are one kind and compare as integers, doubles by their total order,
decimals as numbers, texts by their code points, bytes lexicographically.  Two cells are equal if neither is before the
other, so `1` signed and `1` unsigned are one key, and so are `1.5` and `1.50`.
-/
namespace RowStore

/-- A column value as the engine stores it. -/
inductive Cell
  | null
  | int (n : Int64)
  | uint (n : UInt64)
  | double (x : Binary64)
  | decimal (x : Decimal)
  | text (s : String)
  | bytes (b : List UInt8)
  deriving DecidableEq, Inhabited

namespace Cell

def isNull : Cell → Bool
  | null => true
  | _ => false

/-- The place of a kind among the kinds. -/
def kind : Cell → Nat
  | null => 0
  | int _ | uint _ => 1
  | double _ => 2
  | decimal _ => 3
  | text _ => 4
  | bytes _ => 5

/-- The order of an index. -/
def order : Cell → Cell → Ordering
  | null, null => .eq
  | int a, int b => compare a.toInt b.toInt
  | int a, uint b => compare a.toInt (b.toNat : Int)
  | uint a, int b => compare (a.toNat : Int) b.toInt
  | uint a, uint b => compare (a.toNat : Int) (b.toNat : Int)
  | double a, double b => a.compareTotal b
  | decimal a, decimal b => a.compareNumber b
  | text a, text b => compare a b
  | bytes a, bytes b => compare a b
  | a, b => compare a.kind b.kind

instance : Ord Cell := ⟨order⟩

/-- Equality as a key. -/
def same (a b : Cell) : Bool := a.order b == .eq

/-- Cells in order; equal ones keep theirs. -/
def sort (cells : List Cell) : List Cell := cells.mergeSort fun a b => (a.order b).isLE

end Cell

/-- The entry of an index: cells in the order of its columns.  Entries compare lexicographically, so a key that is a
beginning of another stands before it. -/
abbrev Key := List Cell

namespace Key

/-- The order of an index's entries. -/
def order (a b : Key) : Ordering := List.compareLex Cell.order a b

/-- Compares as many leading cells of an entry as the key has. -/
def orderLeading (entry key : Key) : Ordering :=
  order (entry.take key.length) (key.take entry.length)

end Key
end RowStore

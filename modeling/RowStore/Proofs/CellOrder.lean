import Mathlib
import RowStore.Cell

/-!
# The order of cells and keys is lawful

Cells compare kind by kind, yet their order is one lexicographic order: first the kind, then the five readings that the
kinds have (`Cell.order_eq`).  A reading that a cell does not have is the same for all cells of its kind and decides
nothing.  So the order of cells, and with it that of keys, is total and transitive (`Std.TransCmp`), which is what every
look-up in an ordered map relies on.
-/
namespace RowStore

open Std (TransCmp OrientedCmp)

/-! ## Decimals compare as numbers -/

theorem pow10_pos (n : Nat) : 0 < pow10 n := Nat.pow_pos (by decide)

namespace Decimal

theorem compareNumber_isLE (x y : Decimal) :
    (x.compareNumber y).isLE ↔ x.mantissa * pow10 y.scale ≤ y.mantissa * pow10 x.scale := by
  unfold compareNumber
  rw [Int.isLE_compare]

instance : TransCmp compareNumber where
  eq_swap := by
    intro x y
    unfold compareNumber
    exact OrientedCmp.eq_swap
  isLE_trans := by
    intro x y z hxy hyz
    rw [compareNumber_isLE] at *
    have hx : (0 : Int) < pow10 x.scale := by exact_mod_cast pow10_pos x.scale
    have hy : (0 : Int) < pow10 y.scale := by exact_mod_cast pow10_pos y.scale
    have hz : (0 : Int) < pow10 z.scale := by exact_mod_cast pow10_pos z.scale
    -- both sides are brought over the scale of `y`, which is then cancelled
    refine le_of_mul_le_mul_right ?_ hy
    calc x.mantissa * pow10 z.scale * pow10 y.scale
        = x.mantissa * pow10 y.scale * pow10 z.scale := by ring
      _ ≤ y.mantissa * pow10 x.scale * pow10 z.scale := Int.mul_le_mul_of_nonneg_right hxy hz.le
      _ = y.mantissa * pow10 z.scale * pow10 x.scale := by ring
      _ ≤ z.mantissa * pow10 y.scale * pow10 x.scale := Int.mul_le_mul_of_nonneg_right hyz hx.le
      _ = z.mantissa * pow10 x.scale * pow10 y.scale := by ring

end Decimal

/-! ## Cells -/

namespace Cell

/-- The integer that a cell holds; zero for cells of other kinds. -/
def integerReading : Cell → Int
  | int n => n.toInt
  | uint n => n.toNat
  | _ => 0

/-- The place of the double that a cell holds on the line of all doubles. -/
def doubleReading : Cell → Int
  | double x => x.rank
  | _ => 0

def decimalReading : Cell → Decimal
  | decimal x => x
  | _ => default

def textReading : Cell → String
  | text s => s
  | _ => ""

def bytesReading : Cell → List UInt8
  | bytes b => b
  | _ => []

/-- The order on the readings of cells. -/
def readingOrder : Cell → Cell → Ordering :=
  compareLex (compareOn kind) (compareLex (compareOn integerReading) (compareLex (compareOn doubleReading)
    (compareLex (fun a b => a.decimalReading.compareNumber b.decimalReading)
      (compareLex (compareOn textReading) (compareOn bytesReading)))))

/-- **The order of cells is lexicographic**: by kind, then by the reading of that kind. -/
theorem order_eq (a b : Cell) : a.order b = readingOrder a b := by
  cases a <;> cases b <;>
    simp [order, readingOrder, compareLex, compareOn, kind, integerReading, doubleReading, decimalReading, textReading,
      bytesReading, Binary64.compareTotal, Nat.compare_eq_ite_lt, Std.ReflCmp.compare_self]

instance : TransCmp (fun a b : Cell => a.decimalReading.compareNumber b.decimalReading) where
  eq_swap := OrientedCmp.eq_swap
  isLE_trans := TransCmp.isLE_trans

instance : TransCmp order := by
  have h : order = readingOrder := by
    funext a b
    exact order_eq a b
  rw [h]
  unfold readingOrder
  infer_instance

instance : Std.TransOrd Cell := inferInstanceAs (TransCmp order)

end Cell

/-! ## Keys -/

namespace Key

theorem compare_eq (a b : Key) : compare a b = Key.order a b := rfl

instance : TransCmp Key.order := inferInstanceAs (TransCmp (List.compareLex Cell.order))

end Key
end RowStore

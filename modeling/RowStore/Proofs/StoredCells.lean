import Mathlib
import RowStore.Codec.Record

/-!
# The cells of a column

What a column of integers, texts or byte arrays makes of a value (`Column.Encodes`), and the cells that such a column
stores (`Column.Stores`).  A stored cell reads back as a value (`decode_of_stores`), and a value agrees with a stored cell
just if it has that cell as its encoding (`agree_iff`).  Cells of one column that compare equal are the same cell
(`eq_of_order`), which is not so of decimals or across kinds of integers.
-/
namespace RowStore

/-! ## Columns that can be read back -/

namespace Column

/-- A column of integers, texts or byte arrays. -/
def IsBasic (c : Column) : Prop := c.type.isInteger = true ∨ c.type.isString = true ∨ c.type.isByteArray = true

instance (c : Column) : Decidable c.IsBasic := inferInstanceAs (Decidable (_ ∨ _ ∨ _))

variable {c : Column} {v : Value} {cell : Cell}

theorem kinds_of_isInteger {type : ColumnType} (h : type.isInteger = true) :
    type.isString = false ∧ type.isByteArray = false ∧ type.isDecimalFamily = false := by
  cases type <;> first | decide | cases h

theorem kinds_of_isString {type : ColumnType} (h : type.isString = true) :
    type.isInteger = false ∧ type.isByteArray = false ∧ type.isDecimalFamily = false := by
  cases type <;> first | decide | cases h

theorem kinds_of_isByteArray {type : ColumnType} (h : type.isByteArray = true) :
    type.isInteger = false ∧ type.isString = false ∧ type.isDecimalFamily = false := by
  cases type <;> first | decide | cases h

/-! ## Integers of a width -/

theorem bits_le (c : Column) : c.bits ≤ 64 := by
  unfold bits integerBits
  omega

theorem shift_le {a b : Nat} (h : a ≤ b) : 1 <<< a ≤ 1 <<< b := by
  rw [Nat.one_shiftLeft, Nat.one_shiftLeft]
  exact Nat.pow_le_pow_right (by decide) h

theorem toInt_of_fits {n : Int} (h : FitsSigned c.bits n) : (Int64.ofInt n).toInt = n := by
  have hle := shift_le (Nat.sub_le_sub_right c.bits_le 1)
  have hmax : (1 <<< (64 - 1) : Nat) = 9223372036854775808 := by decide
  rw [hmax] at hle
  obtain ⟨hlow, hhigh⟩ := h
  exact Int64.toInt_ofInt_of_le (by omega) (by omega)

theorem toNat_of_fits {n : Int} (h : FitsUnsigned c.bits n) : ((UInt64.ofNat n.toNat).toNat : Int) = n := by
  have hle := shift_le c.bits_le
  have hmax : (1 <<< 64 : Nat) = 18446744073709551616 := by decide
  rw [hmax] at hle
  obtain ⟨hlow, hhigh⟩ := h
  have hsize : n.toNat < UInt64.size := by
    show n.toNat < 18446744073709551616
    omega
  rw [UInt64.toNat_ofNat_of_lt' hsize]
  omega

/-! ## Encoding -/

/-- What a column makes of a value. -/
inductive Encodes (c : Column) (v : Value) : Cell → Prop
  | null (h : v.isNull = true) : Encodes c v .null
  | int (n : Int64) (hnull : v.isNull = false) (htype : c.type.isInteger = true) (hsign : c.isUnsigned = false)
      (hview : v.integer? = some n.toInt) (hfits : FitsSigned c.bits n.toInt) : Encodes c v (.int n)
  | uint (n : UInt64) (hnull : v.isNull = false) (htype : c.type.isInteger = true) (hsign : c.isUnsigned = true)
      (hview : v.integer? = some (n.toNat : Int)) (hfits : FitsUnsigned c.bits n.toNat) : Encodes c v (.uint n)
  | text (s : String) (hnull : v.isNull = false) (htype : c.type.isString = true) (hview : v.text? = some s) :
      Encodes c v (.text s)
  | bytes (b : List UInt8) (hnull : v.isNull = false) (htype : c.type.isByteArray = true) (hview : v.bytes? = some b) :
      Encodes c v (.bytes b)

theorem encodes_of_encodeInteger (hnull : v.isNull = false) (htype : c.type.isInteger = true)
    (h : c.encodeInteger v = .ok cell) : c.Encodes v cell := by
  unfold encodeInteger at h
  split at h
  · cases h
  rename_i n hview
  split at h
  · rename_i hsign
    split at h
    · rename_i hfits
      cases h
      have hn := toNat_of_fits hfits
      exact Encodes.uint _ hnull htype hsign (by rw [hn]; exact hview) (by rw [hn]; exact hfits)
    · cases h
  · rename_i hsign
    split at h
    · rename_i hfits
      cases h
      have hn := toInt_of_fits hfits
      exact Encodes.int _ hnull htype (eq_false_of_ne_true hsign) (by rw [hn]; exact hview) (by rw [hn]; exact hfits)
    · cases h

theorem encodes_of_encodeText (hnull : v.isNull = false) (htype : c.type.isString = true)
    (h : c.encodeText v = .ok cell) : c.Encodes v cell := by
  unfold encodeText at h
  split at h
  · cases h
  rename_i s hview
  split at h
  · cases h
  · cases h
    exact Encodes.text s hnull htype hview

theorem encodes_of_encodeBytes (hnull : v.isNull = false) (htype : c.type.isByteArray = true)
    (h : c.encodeBytes v = .ok cell) : c.Encodes v cell := by
  unfold encodeBytes at h
  split at h
  · cases h
  rename_i b hview
  split at h
  · cases h
  · cases h
    exact Encodes.bytes b hnull htype hview

/-- **An encoding is one that the column makes.** -/
theorem encodes_of_encode (hbasic : c.IsBasic) (h : c.encode v = .ok cell) : c.Encodes v cell := by
  unfold encode at h
  cases hnull : v.isNull with
  | true =>
    rw [hnull] at h
    cases h
    exact Encodes.null hnull
  | false =>
    simp only [hnull, Bool.false_eq_true, if_false] at h
    rcases hbasic with htype | htype | htype
    · rw [if_pos htype] at h
      exact encodes_of_encodeInteger hnull htype h
    · rw [if_neg (by simp [kinds_of_isString htype]), if_pos htype] at h
      exact encodes_of_encodeText hnull htype h
    · rw [if_neg (by simp [kinds_of_isByteArray htype]), if_neg (by simp [kinds_of_isByteArray htype]),
        if_pos htype] at h
      exact encodes_of_encodeBytes hnull htype h

/-! ## Cells in a column -/

/-- The cells that a column of integers, texts or byte arrays stores. -/
def Stores (c : Column) : Cell → Prop
  | .null => True
  | .int n => c.type.isInteger = true ∧ c.isUnsigned = false ∧ FitsSigned c.bits n.toInt
  | .uint n => c.type.isInteger = true ∧ c.isUnsigned = true ∧ FitsUnsigned c.bits n.toNat
  | .text _ => c.type.isString = true
  | .bytes _ => c.type.isByteArray = true
  | .double _ | .decimal _ => False

theorem Encodes.stores (h : c.Encodes v cell) : c.Stores cell := by
  cases h with
  | null => exact True.intro
  | int n _ htype hsign _ hfits => exact ⟨htype, hsign, hfits⟩
  | uint n _ htype hsign _ hfits => exact ⟨htype, hsign, hfits⟩
  | text s _ htype _ => exact htype
  | bytes b _ htype _ => exact htype

theorem Encodes.isNull_eq (h : c.Encodes v cell) : cell.isNull = v.isNull := by
  cases h with
  | null h => exact h.symm
  | int n h => exact h.symm
  | uint n h => exact h.symm
  | text s h => exact h.symm
  | bytes b h => exact h.symm

/-- **Cells of a column that compare equal are the same.** -/
theorem eq_of_order {a b : Cell} (ha : c.Stores a) (hb : c.Stores b) (h : a.order b = .eq) : a = b := by
  cases a <;> cases b <;> first | rfl | cases h | exact False.elim ha | skip
  case int.int m n => exact congrArg Cell.int (Int64.toInt_inj.1 (Std.LawfulEqOrd.eq_of_compare h))
  case int.uint m n => exact absurd (ha.2.1.symm.trans hb.2.1) (by decide)
  case uint.int m n => exact absurd (ha.2.1.symm.trans hb.2.1) (by decide)
  case uint.uint m n =>
    have hmn : (m.toNat : Int) = n.toNat := Std.LawfulEqOrd.eq_of_compare h
    exact congrArg Cell.uint (UInt64.toNat_inj.1 (by omega))
  case text.text s t => exact congrArg Cell.text (Std.LawfulEqOrd.eq_of_compare h)
  case bytes.bytes x y => exact congrArg Cell.bytes (Std.LawfulEqOrd.eq_of_compare h)

end Column

/-! ## Reading back -/

/-- The value that a cell reads back as. -/
def Cell.value : Cell → Value
  | null => .null
  | int n => .int n
  | uint n => .uint n
  | double x => .float x
  | decimal x => .decimal x
  | text s => .text s
  | bytes b => .bytes b

theorem Cell.isNull_value (cell : Cell) : cell.value.isNull = cell.isNull := by cases cell <;> rfl

namespace Column

variable {c : Column} {v : Value} {cell : Cell}

theorem slot_of_live {tuple : Tuple} {ordinal : Nat} (hlive : tuple.disposed = false)
    (h : tuple.cells[ordinal]? = some cell) : tuple.slot ordinal = .ok cell := by
  unfold Tuple.slot
  simp only [Tuple.checkLive, hlive, h]
  rfl

/-- **A stored cell reads back as its value.** -/
theorem decode_of_stores (hbasic : c.IsBasic) {tuple : Tuple} (hlive : tuple.disposed = false)
    (h : tuple.cells[c.ordinal]? = some cell) (hcell : c.Stores cell) : c.decode tuple = .ok cell.value := by
  have hslot := slot_of_live hlive h
  unfold decode
  rcases hbasic with htype | htype | htype
  · obtain ⟨hstring, hbytes, -⟩ := kinds_of_isInteger htype
    simp only [htype, hstring, hbytes, Bool.false_eq_true, if_false, if_true]
    unfold Tuple.readInt
    rw [hslot]
    cases cell with
    | null => rfl
    | int n =>
      rw [hcell.2.1]
      exact if_pos hcell.2.2
    | uint n =>
      rw [hcell.2.1]
      exact if_pos hcell.2.2
    | text s => exact absurd hcell (by simp [Stores, hstring])
    | bytes b => exact absurd hcell (by simp [Stores, hbytes])
    | double x => exact hcell.elim
    | decimal x => exact hcell.elim
  · obtain ⟨hinteger, hbytes, -⟩ := kinds_of_isString htype
    simp only [htype, hbytes, Bool.false_eq_true, if_false, if_true]
    unfold Tuple.readString
    rw [hslot]
    cases cell with
    | null => rfl
    | text s => rfl
    | int n => exact absurd hcell (by simp [Stores, hinteger])
    | uint n => exact absurd hcell (by simp [Stores, hinteger])
    | bytes b => exact absurd hcell (by simp [Stores, hbytes])
    | double x => exact hcell.elim
    | decimal x => exact hcell.elim
  · obtain ⟨hinteger, hstring, -⟩ := kinds_of_isByteArray htype
    simp only [htype, if_true]
    unfold Tuple.readBytes
    rw [hslot]
    cases cell with
    | null => rfl
    | bytes b => rfl
    | int n => exact absurd hcell (by simp [Stores, hinteger])
    | uint n => exact absurd hcell (by simp [Stores, hinteger])
    | text s => exact absurd hcell (by simp [Stores, hstring])
    | double x => exact hcell.elim
    | decimal x => exact hcell.elim

/-! ## Agreeing -/

/-- **A value agrees with a stored cell just if it is encoded as that cell.** -/
theorem Encodes.agree_iff (h : c.Encodes v cell) {cell' : Cell} (h' : c.Stores cell') :
    c.type.agree v cell'.value = true ↔ cell = cell' := by
  unfold ColumnType.agree
  rw [Cell.isNull_value]
  cases h with
  | null hnull => cases cell' <;> simp [hnull, Cell.isNull]
  | int n hnull htype hsign hview _ =>
    obtain ⟨hstring, hbytes, -⟩ := kinds_of_isInteger htype
    cases cell' with
    | null => simp [hnull, Cell.isNull]
    | int m =>
      have hm : (Cell.int m).value.integer? = some m.toInt := rfl
      simp [hnull, Cell.isNull, htype, hview, hm, bothSame, Int64.toInt_inj]
    | uint m => exact absurd (hsign.symm.trans h'.2.1) (by decide)
    | text s => exact absurd h' (by simp [Stores, hstring])
    | bytes b => exact absurd h' (by simp [Stores, hbytes])
    | double x => exact h'.elim
    | decimal x => exact h'.elim
  | uint n hnull htype hsign hview _ =>
    obtain ⟨hstring, hbytes, -⟩ := kinds_of_isInteger htype
    cases cell' with
    | null => simp [hnull, Cell.isNull]
    | int m => exact absurd (hsign.symm.trans h'.2.1) (by decide)
    | uint m =>
      have hm : (Cell.uint m).value.integer? = some (m.toNat : Int) := rfl
      simp [hnull, Cell.isNull, htype, hview, hm, bothSame, UInt64.toNat_inj]
    | text s => exact absurd h' (by simp [Stores, hstring])
    | bytes b => exact absurd h' (by simp [Stores, hbytes])
    | double x => exact h'.elim
    | decimal x => exact h'.elim
  | text s hnull htype hview =>
    obtain ⟨hinteger, hbytes, hdecimal⟩ := kinds_of_isString htype
    cases cell' with
    | null => simp [hnull, Cell.isNull]
    | text t =>
      have ht : (Cell.text t).value.text? = some t := rfl
      simp [hnull, Cell.isNull, hinteger, hdecimal, htype, hview, ht, bothSame]
    | int m => exact absurd h' (by simp [Stores, hinteger])
    | uint m => exact absurd h' (by simp [Stores, hinteger])
    | bytes b => exact absurd h' (by simp [Stores, hbytes])
    | double x => exact h'.elim
    | decimal x => exact h'.elim
  | bytes b hnull htype hview =>
    obtain ⟨hinteger, hstring, hdecimal⟩ := kinds_of_isByteArray htype
    cases cell' with
    | null => simp [hnull, Cell.isNull]
    | bytes d =>
      have hd : (Cell.bytes d).value.bytes? = some d := rfl
      simp [hnull, Cell.isNull, hinteger, hdecimal, hstring, htype, hview, hd, bothSame]
    | int m => exact absurd h' (by simp [Stores, hinteger])
    | uint m => exact absurd h' (by simp [Stores, hinteger])
    | text s => exact absurd h' (by simp [Stores, hstring])
    | double x => exact h'.elim
    | decimal x => exact h'.elim

end Column
end RowStore

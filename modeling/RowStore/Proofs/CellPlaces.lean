import RowStore.Proofs.CellOrder
import RowStore.Proofs.Numerals

/-!
# Which cell stands before which

The order of cells, said by what cells hold (`Cell.Before`, `Cell.order_eq_lt_iff`).  Integers stand as integers,
whichever sign they are stored with, and decimals as the rational numbers that they are, whatever their scale.  Doubles
stand by the sign and the magnitude of their bits, which for finite ones is by their exact value, minus zero before zero
(`Binary64.precedes_iff`).  Texts stand as the bytes of their UTF-8 (`utf8_lt_iff`).
-/
namespace RowStore

/-! ## Doubles -/

namespace Binary64

variable {x y : Binary64}

/-- The negative doubles come first, the greatest magnitude before all others, then the rest from zero onward. -/
def Precedes (x y : Binary64) : Prop :=
  if x.isNegative then (y.isNegative → y.magnitude < x.magnitude) else ¬y.isNegative ∧ x.magnitude < y.magnitude

theorem rank_lt_rank_iff : x.rank < y.rank ↔ x.Precedes y := by
  unfold rank Precedes
  cases x.isNegative <;> cases y.isNegative <;> simp
  omega

theorem bits_toNat (x : Binary64) : x.bits.toNat = (if x.isNegative then signBit else 0) + x.magnitude := by
  have hbits := x.bits.toNat_lt
  have hsign : signBit = 2 ^ 63 := rfl
  unfold isNegative magnitude
  rw [hsign]
  by_cases h : 2 ^ 63 ≤ x.bits.toNat
  · simp only [h, decide_true, if_true]
    omega
  · simp only [h, decide_false, Bool.false_eq_true, if_false]
    omega

theorem rank_eq_rank_iff : x.rank = y.rank ↔ x.bits = y.bits := by
  constructor
  · intro h
    have hx := x.bits_toNat
    have hy := y.bits_toNat
    refine UInt64.toNat_inj.1 ?_
    rw [hx, hy]
    unfold rank at h
    cases hsx : x.isNegative <;> cases hsy : y.isNegative <;> simp [hsx, hsy] at h ⊢ <;> omega
  · intro h
    cases x
    cases y
    cases h
    rfl

/-- The exact value of a finite double. -/
def toRat (x : Binary64) : ℚ := if x.isNegative then -(x.fraction.1 / x.fraction.2) else x.fraction.1 / x.fraction.2

theorem fraction_eq (x : Binary64) : (x.fraction.1 : ℚ) / x.fraction.2 = x.significand * 2 ^ x.exponent := by
  have hcast : ∀ n : Nat, ((1 <<< n : Nat) : ℚ) = 2 ^ n := fun n => by
    rw [Nat.shiftLeft_eq]
    push_cast
    ring
  unfold fraction
  split
  · rename_i h
    obtain ⟨n, hn⟩ := Int.eq_ofNat_of_zero_le h
    rw [hn, Int.toNat_natCast, Nat.shiftLeft_eq, zpow_natCast]
    push_cast
    ring
  · rename_i h
    obtain ⟨n, hn⟩ := Int.eq_ofNat_of_zero_le (show 0 ≤ -x.exponent by omega)
    rw [hn, Int.toNat_natCast, hcast, show x.exponent = -n by omega, zpow_neg, zpow_natCast]
    ring

def least : ℚ := 2 ^ (-1074 : ℤ)

/-- The absolute value of a finite double in multiples of the least positive one. -/
def units (x : Binary64) : Nat := x.significand * 2 ^ (max x.field 1 - 1)

theorem toRat_eq (x : Binary64) : x.toRat = (if x.isNegative then -(x.units : ℤ) else x.units : ℤ) * least := by
  have hplaces : x.exponent = ((max x.field 1 - 1 : Nat) : ℤ) + (-1074 : ℤ) := by
    unfold exponent
    omega
  have hunits : (x.significand : ℚ) * 2 ^ x.exponent = x.units * least := by
    have hleast : (2 : ℚ) ^ (-1074 : ℤ) = least := rfl
    rw [hplaces, zpow_add₀ two_ne_zero, zpow_natCast, hleast]
    unfold units
    push_cast
    ring
  unfold toRat
  rw [fraction_eq, hunits]
  split <;> push_cast <;> ring

theorem magnitude_eq (x : Binary64) : x.magnitude = x.field * 2 ^ 52 + x.magnitude % 2 ^ 52 :=
  (Nat.div_add_mod' x.magnitude (2 ^ 52)).symm

theorem significand_eq (x : Binary64) : x.significand = x.magnitude % 2 ^ 52 + if x.field = 0 then 0 else 2 ^ 52 := rfl

/-- A step of the exponent is worth more than all significands below it. -/
theorem units_lt (x : Binary64) : x.units < 2 ^ 52 * 2 ^ x.field := by
  have hrest : x.magnitude % 2 ^ 52 < 2 ^ 52 := Nat.mod_lt _ (by decide)
  unfold units
  rw [significand_eq]
  by_cases h : x.field = 0
  · simpa [h] using hrest
  · have hpow : 2 ^ x.field = 2 * 2 ^ (max x.field 1 - 1) := by
      rw [← pow_succ']
      congr 1
      omega
    rw [if_neg h, hpow, ← mul_assoc]
    exact Nat.mul_lt_mul_of_pos_right (by omega) (by positivity)

theorem le_units (h : x.field ≠ 0) : 2 ^ 52 * 2 ^ (x.field - 1) ≤ x.units := by
  unfold units
  rw [significand_eq, if_neg h, show max x.field 1 = x.field by omega]
  exact Nat.mul_le_mul_right _ (by omega)

/-- **A double of greater magnitude is greater in absolute value.** -/
theorem units_lt_units (h : x.magnitude < y.magnitude) : x.units < y.units := by
  have hx := x.magnitude_eq
  have hy := y.magnitude_eq
  have hrestx : x.magnitude % 2 ^ 52 < 2 ^ 52 := Nat.mod_lt _ (by decide)
  have hresty : y.magnitude % 2 ^ 52 < 2 ^ 52 := Nat.mod_lt _ (by decide)
  rcases lt_trichotomy x.field y.field with hfield | hfield | hfield
  · calc x.units < 2 ^ 52 * 2 ^ x.field := x.units_lt
      _ ≤ 2 ^ 52 * 2 ^ (y.field - 1) := Nat.mul_le_mul_left _ (Nat.pow_le_pow_right (by decide) (by omega))
      _ ≤ y.units := le_units (by omega)
  · have hrest : x.magnitude % 2 ^ 52 < y.magnitude % 2 ^ 52 := by rw [hfield] at hx; omega
    unfold units
    rw [significand_eq, significand_eq, hfield]
    exact Nat.mul_lt_mul_of_pos_right (by omega) (by positivity)
  · omega

theorem units_lt_units_iff : x.units < y.units ↔ x.magnitude < y.magnitude := by
  have heq : x.magnitude = y.magnitude → x.units = y.units := fun h => by
    unfold units significand field
    rw [h]
  constructor
  · intro h
    rcases lt_trichotomy x.magnitude y.magnitude with hlt | hmid | hgt
    · exact hlt
    · exact absurd h (heq hmid).not_lt
    · exact absurd h (units_lt_units hgt).not_gt
  · exact units_lt_units

theorem units_eq_zero_iff : x.units = 0 ↔ x.isZero := by
  have hzero : (⟨0⟩ : Binary64).units = 0 := by decide
  have hmagnitude : (⟨0⟩ : Binary64).magnitude = 0 := by decide
  have hpos := units_lt_units_iff (x := ⟨0⟩) (y := x)
  rw [hzero, hmagnitude] at hpos
  unfold isZero
  rw [beq_iff_eq]
  omega

/-- **One finite double precedes another if its exact value is less**, or if they are minus zero and zero. -/
theorem precedes_iff : x.Precedes y ↔
    x.toRat < y.toRat ∨ (x.isZero ∧ y.isZero ∧ x.isNegative ∧ ¬y.isNegative) := by
  have hleast : 0 < least := zpow_pos two_pos _
  rw [toRat_eq, toRat_eq, mul_lt_mul_iff_left₀ hleast, Int.cast_lt, ← units_eq_zero_iff, ← units_eq_zero_iff]
  unfold Precedes
  rw [← units_lt_units_iff, ← units_lt_units_iff]
  cases x.isNegative <;> cases y.isNegative <;> simp
  omega

end Binary64

/-! ## Decimals -/

theorem Decimal.compareNumber_eq (x y : Decimal) : x.compareNumber y = compare x.toRat y.toRat := by
  have hlt : ∀ x y : Decimal, x.mantissa * pow10 y.scale < y.mantissa * pow10 x.scale ↔ x.toRat < y.toRat := by
    intro x y
    have hx : (0 : ℚ) < 10 ^ x.scale := by positivity
    have hy : (0 : ℚ) < 10 ^ y.scale := by positivity
    unfold toRat pow10
    rw [div_lt_div_iff₀ hx hy, Nat.pow_eq, Nat.pow_eq]
    exact_mod_cast Iff.rfl
  unfold compareNumber
  rcases lt_trichotomy x.toRat y.toRat with h | h | h
  · rw [compare_lt_iff_lt.2 h, compare_lt_iff_lt.2 ((hlt x y).2 h)]
  · have hxy := (hlt x y).not.2 h.not_lt
    have hyx := (hlt y x).not.2 h.not_gt
    rw [compare_eq_iff_eq.2 h, compare_eq_iff_eq.2 (le_antisymm (not_lt.1 hyx) (not_lt.1 hxy))]
  · rw [compare_gt_iff_gt.2 h, compare_gt_iff_gt.2 ((hlt y x).2 h)]

/-! ## Bytes and texts -/

theorem compare_bytes_eq_lt : ∀ {x y : List UInt8}, compare x y = .lt ↔ x < y
  | [], [] => ⟨fun h => (by cases h), fun h => absurd h (List.lt_irrefl _)⟩
  | [], b :: y => ⟨fun _ => List.nil_lt_cons b y, fun _ => rfl⟩
  | _ :: _, [] => ⟨fun h => (by cases h), fun h => (by cases h)⟩
  | a :: x, b :: y => by
    have hcons : compare (a :: x) (b :: y) = (compare a b).then (compare x y) := List.compareLex_cons_cons
    rw [hcons, Ordering.then_eq_lt, List.cons_lt_cons_iff, Std.compare_eq_lt, Std.LawfulEqOrd.compare_eq_iff_eq,
      compare_bytes_eq_lt]

/-- Two words of bytes part before either ends, and the first has the lesser byte there. -/
def Forks : List UInt8 → List UInt8 → Prop
  | a :: x, b :: y => a < b ∨ a = b ∧ Forks x y
  | _, _ => False

theorem Forks.lt : ∀ {x y : List UInt8}, Forks x y → ∀ u v : List UInt8, x ++ u < y ++ v
  | a :: x, b :: y, h, u, v => by
    rw [List.cons_append, List.cons_append, List.cons_lt_cons_iff]
    exact h.imp_right fun h => ⟨h.1, h.2.lt u v⟩

theorem exists_digits (v : Nat) : ∃ a b c d, v / 262144 = a ∧ v / 4096 % 64 = b ∧ v / 64 % 64 = c ∧ v % 64 = d ∧
    v = 262144 * a + 4096 * b + 64 * c + d ∧ b < 64 ∧ c < 64 ∧ d < 64 :=
  ⟨_, _, _, _, rfl, rfl, rfl, rfl, by omega, by omega, by omega, by omega⟩

theorem forks_utf8EncodeChar {c d : Char} (h : c < d) : Forks (String.utf8EncodeChar c) (String.utf8EncodeChar d) := by
  have hlt : c.val.toNat < d.val.toNat := h
  have hd : d.val.toNat < 1114112 := by
    have hvalid := d.valid
    unfold UInt32.isValidChar Nat.isValidChar at hvalid
    omega
  have hbyte : ∀ n < 256, (UInt8.ofNat n).toNat = n := fun n hn => UInt8.toNat_ofNat_of_lt' hn
  unfold String.utf8EncodeChar
  generalize c.val.toNat = v at hlt ⊢
  generalize d.val.toNat = w at hlt hd ⊢
  obtain ⟨v₃, v₂, v₁, v₀, hv₃, hv₂, hv₁, hv₀, hv⟩ := exists_digits v
  obtain ⟨w₃, w₂, w₁, w₀, hw₃, hw₂, hw₁, hw₀, hw⟩ := exists_digits w
  simp only
  -- a first byte tells how many there are, and more of them come later
  split_ifs <;>
    simp (disch := omega) only [Forks, UInt8.lt_iff_toNat_lt, ← UInt8.toNat_inj, hbyte, Nat.mod_eq_of_lt, hv₃, hv₂, hv₁,
      hv₀, hw₃, hw₂, hw₁, hw₀] <;>
    omega

theorem flatMap_utf8EncodeChar_lt : ∀ {x y : List Char}, x < y →
    x.flatMap String.utf8EncodeChar < y.flatMap String.utf8EncodeChar
  | [], [], h => absurd h (List.lt_irrefl _)
  | [], d :: y, _ => by
    rw [List.flatMap_cons]
    cases hd : String.utf8EncodeChar d with
    | nil => exact absurd hd String.utf8EncodeChar_ne_nil
    | cons b rest => exact List.nil_lt_cons b _
  | _ :: _, [], h => by cases h
  | c :: x, d :: y, h => by
    rw [List.flatMap_cons, List.flatMap_cons]
    rcases List.cons_lt_cons_iff.1 h with hchar | ⟨rfl, hrest⟩
    · exact (forks_utf8EncodeChar hchar).lt _ _
    · exact List.append_left_lt (flatMap_utf8EncodeChar_lt hrest)

theorem toUTF8_eq (s : String) : s.toUTF8.data.toList = s.toList.flatMap String.utf8EncodeChar := by
  rw [String.toUTF8_eq_toByteArray, ← String.utf8Encode_toList]
  exact List.toList_data_toByteArray

/-- **Texts are in the order of their bytes.** -/
theorem utf8_lt_iff {s t : String} : s.toUTF8.data.toList < t.toUTF8.data.toList ↔ s < t := by
  rw [toUTF8_eq, toUTF8_eq, String.lt_iff_toList_lt]
  refine ⟨fun h => ?_, flatMap_utf8EncodeChar_lt⟩
  rcases lt_trichotomy s.toList t.toList with hlt | heq | hgt
  · exact hlt
  · rw [heq] at h
    exact absurd h (List.lt_irrefl _)
  · exact absurd h (List.lt_asymm (flatMap_utf8EncodeChar_lt hgt))

/-! ## Cells -/

namespace Cell

variable {a b : Cell}

def integer? : Cell → Option Int
  | int n => some n.toInt
  | uint n => some n.toNat
  | _ => none

/-- One cell stands before another: its kind does, or they are of one kind and what it holds is less. -/
inductive Before : Cell → Cell → Prop
  | kind {a b : Cell} (h : a.kind < b.kind) : Before a b
  | integer {a b : Cell} {m n : Int} (ha : a.integer? = some m) (hb : b.integer? = some n) (h : m < n) : Before a b
  | double {x y : Binary64} (h : x.Precedes y) : Before (double x) (double y)
  | decimal {x y : Decimal} (h : x.toRat < y.toRat) : Before (decimal x) (decimal y)
  | text {s t : String} (h : s.toUTF8.data.toList < t.toUTF8.data.toList) : Before (text s) (text t)
  | bytes {b c : List UInt8} (h : b < c) : Before (bytes b) (bytes c)

theorem order_of_kind_ne (h : a.kind ≠ b.kind) : a.order b = compare a.kind b.kind := by
  cases a <;> cases b <;> first | rfl | exact absurd rfl h

theorem order_of_integer? {m n : Int} (ha : a.integer? = some m) (hb : b.integer? = some n) :
    a.order b = compare m n := by
  cases a <;> cases ha <;> cases b <;> cases hb <;> rfl

theorem order_decimal (x y : Decimal) : (decimal x).order (decimal y) = compare x.toRat y.toRat := x.compareNumber_eq y

theorem order_double_eq_lt {x y : Binary64} : (double x).order (double y) = .lt ↔ x.Precedes y := by
  rw [← Binary64.rank_lt_rank_iff]
  exact compare_lt_iff_lt

theorem order_double_eq_eq {x y : Binary64} : (double x).order (double y) = .eq ↔ x.bits = y.bits := by
  rw [← Binary64.rank_eq_rank_iff]
  exact compare_eq_iff_eq

theorem order_text_eq_lt {s t : String} :
    (text s).order (text t) = .lt ↔ s.toUTF8.data.toList < t.toUTF8.data.toList := by
  rw [utf8_lt_iff]
  exact compareOfLessAndEq_eq_lt

/-- **A cell is ordered before another just if it stands before it.** -/
theorem order_eq_lt_iff : a.order b = .lt ↔ a.Before b := by
  constructor
  · intro h
    by_cases hkind : a.kind = b.kind
    · cases a with
      | null =>
        cases b with
        | null => cases h
        | _ => cases hkind
      | int _ | uint _ =>
        cases b with
        | int _ | uint _ =>
          rw [order_of_integer? rfl rfl] at h
          exact .integer rfl rfl (compare_lt_iff_lt.1 h)
        | _ => cases hkind
      | double x =>
        cases b with
        | double y => exact .double (order_double_eq_lt.1 h)
        | _ => cases hkind
      | decimal x =>
        cases b with
        | decimal y =>
          rw [order_decimal] at h
          exact .decimal (compare_lt_iff_lt.1 h)
        | _ => cases hkind
      | text s =>
        cases b with
        | text t => exact .text (order_text_eq_lt.1 h)
        | _ => cases hkind
      | bytes x =>
        cases b with
        | bytes y => exact .bytes (compare_bytes_eq_lt.1 h)
        | _ => cases hkind
    · rw [order_of_kind_ne hkind] at h
      exact .kind (compare_lt_iff_lt.1 h)
  · intro h
    cases h with
    | kind h => rw [order_of_kind_ne h.ne, compare_lt_iff_lt.2 h]
    | integer ha hb h => rw [order_of_integer? ha hb, compare_lt_iff_lt.2 h]
    | double h => exact order_double_eq_lt.2 h
    | decimal h => rw [order_decimal, compare_lt_iff_lt.2 h]
    | text h => exact order_text_eq_lt.2 h
    | bytes h => exact compare_bytes_eq_lt.2 h

instance : DecidableRel Before := fun _ _ => decidable_of_iff _ order_eq_lt_iff

example : Before (.int (-1)) (.uint 3) ∧ ¬Before (.uint 3) (.int 3) := by decide

/-- **The integers that cells hold are those of sixty-four bits, signed or unsigned.** -/
theorem exists_integer?_iff {n : Int} : (∃ a : Cell, a.integer? = some n) ↔ -2 ^ 63 ≤ n ∧ n < 2 ^ 64 := by
  constructor
  · rintro ⟨a, ha⟩
    cases a with
    | int m =>
      cases ha
      have hlow := m.le_toInt
      have hhigh := m.toInt_lt
      omega
    | uint m =>
      cases ha
      have hhigh := m.toNat_lt
      omega
    | _ => cases ha
  · rintro ⟨hlow, hhigh⟩
    by_cases h : n < 2 ^ 63
    · exact ⟨.int (Int64.ofInt n), congrArg some (Int64.toInt_ofInt_of_le hlow h)⟩
    · refine ⟨.uint (UInt64.ofNat n.toNat), congrArg some ?_⟩
      rw [UInt64.toNat_ofNat_of_lt' (by show n.toNat < 2 ^ 64; omega)]
      omega

end Cell
end RowStore

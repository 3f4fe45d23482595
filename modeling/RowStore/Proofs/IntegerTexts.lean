import RowStore.Proofs.Agreement
import RowStore.Proofs.Numerals

/-!
# Numerals in integer columns

An integer column takes the text of a numeral as the integer that it counts as (`Numeral.CountsAs`): a numeral without a
point is that integer, one with a point is read as a decimal first.  Reading a decimal rounds, so a fraction that is too
small is lost, and the text counts as an integer that it does not write (`lost_fraction`).  Nothing else is lost: a
numeral counts as its exact value just if it has no point or its value is that of a decimal
(`integer_text_is_exact_iff`).
-/
namespace RowStore
namespace Numeral

variable {x : Numeral} {s : String} {n : Int} {k : Nat}

open Decimal

/-- A numeral that loses nothing when it is read: one without a point, or one whose value some decimal has. -/
def IsExact (x : Numeral) : Prop := x.fraction = none ∨ ∃ d : Decimal, d.toRat = x.value

/-- What a numeral counts as where an integer is wanted: itself if it has no point, or else what is left of it when it
is read as a decimal. -/
def CountsAs (x : Numeral) (n : Int) : Prop :=
  if x.fraction.isNone then x.value = n else ∃ k, x.Room k ∧ x.kept k = n

theorem value_of_whole (h : x.fraction = none) : x.value = x.signed (x.digits : ℤ) := by
  unfold value signed places
  rw [h]
  split <;> simp

theorem value_of_positive {d l : Nat} (hsign : x.sign ≠ .minus) (hdigits : x.digits = d)
    (hlength : x.places.length = l) : x.value = d / 10 ^ l := by
  unfold value signed
  rw [if_neg hsign, hdigits, hlength]

/-- **A text counts as its numeral does.** -/
theorem integer?_eq_some_iff (h : trimBlank s.toList = x.text) : (Value.text s).integer? = some n ↔ x.CountsAs n := by
  have hview : (Value.text s).integer? = (integer? x.text).or ((ofText? x.text).bind toInt?) := by
    rw [← h]
    rfl
  unfold CountsAs
  rw [hview, integer?_text]
  cases hfraction : x.fraction with
  | none =>
    simp only [Option.isNone_none, if_true, Option.some_or, Option.some.injEq]
    rw [value_of_whole hfraction]
    exact Int.cast_inj.symm
  | some f =>
    simp only [Option.isNone_some, Bool.false_eq_true, if_false, Option.none_or]
    rcases x.ofText?_text with ⟨k, hroom, hread⟩ | ⟨hnone, hread⟩
    · rw [hread, Option.bind_some, toInt?_eq_some_iff, hroom.toRat_decimal]
      constructor
      · intro hn
        exact ⟨k, hroom, hn⟩
      · rintro ⟨j, hj, hn⟩
        rwa [hroom.unique x hj]
    · rw [hread]
      constructor
      · intro hn
        cases hn
      · rintro ⟨k, hk, -⟩
        exact absurd hk (hnone k)

/-! ## What is lost -/

theorem kept_eq_value {m : Nat} (h : x.digits * 10 ^ k = m * 10 ^ x.places.length) :
    x.rounded k = m ∧ x.kept k = x.value := by
  have hpos : 0 < 10 ^ x.places.length := Nat.pow_pos (by decide)
  have hround : x.rounded k = m := by
    unfold rounded roundHalfUp pow10
    rw [Nat.pow_eq, Nat.pow_eq, h]
    exact Nat.div_eq_of_lt_le (by nlinarith) (by nlinarith)
  have hquot : (m : ℚ) / 10 ^ k = x.digits / 10 ^ x.places.length := by
    rw [div_eq_div_iff (by positivity) (by positivity)]
    exact_mod_cast h.symm
  unfold kept value
  rw [hround, hquot]
  exact ⟨rfl, rfl⟩

/-- Places that say it all leave only zeros for the others. -/
theorem Room.kept_eq_value {j m : Nat} (hroom : x.Room k) (hj : j ≤ x.places.length) (hscale : j ≤ 28)
    (hm : m < 1 <<< 96) (h : x.digits * 10 ^ j = m * 10 ^ x.places.length) : x.kept k = x.value := by
  have hjk : j ≤ k := by
    by_contra hkj
    have hlong := hroom.most j (by omega) hj hscale
    have hround := (Numeral.kept_eq_value h).1
    omega
  have hk : x.digits * 10 ^ k = m * 10 ^ (k - j) * 10 ^ x.places.length := by
    calc x.digits * 10 ^ k = x.digits * 10 ^ j * 10 ^ (k - j) := by rw [mul_assoc, ← pow_add, Nat.add_sub_cancel' hjk]
      _ = m * 10 ^ (k - j) * 10 ^ x.places.length := by rw [h]; ring
  exact (Numeral.kept_eq_value hk).2

theorem abs_signed (q : ℚ) : |x.signed q| = |q| := by
  unfold signed
  split
  · exact abs_neg q
  · rfl

theorem digits_eq_of_decimal {d : Decimal} (h : d.toRat = x.value) :
    x.digits * 10 ^ d.scale = d.coefficient * 10 ^ x.places.length := by
  have habs : (d.coefficient : ℚ) / 10 ^ d.scale = x.digits / 10 ^ x.places.length := by
    rw [← d.abs_toRat, h, value, abs_signed, abs_of_nonneg (by positivity)]
  rw [div_eq_div_iff (by positivity) (by positivity)] at habs
  exact_mod_cast habs.symm

/-- A numeral with the value of a decimal keeps that value. -/
theorem Room.kept_eq_of_decimal (hroom : x.Room k) {d : Decimal} (h : d.toRat = x.value) : x.kept k = x.value := by
  have hdigits := digits_eq_of_decimal h
  rcases Nat.le_total d.scale x.places.length with hle | hle
  · exact hroom.kept_eq_value hle d.scale_le d.coefficient_lt hdigits
  · -- the decimal has places to spare: no digit of the numeral is lost
    have hsplit : 10 ^ d.scale = 10 ^ (d.scale - x.places.length) * 10 ^ x.places.length := by
      rw [← pow_add, Nat.sub_add_cancel hle]
    have hsame : x.digits * 10 ^ (d.scale - x.places.length) = d.coefficient := by
      apply Nat.eq_of_mul_eq_mul_right (Nat.pow_pos (a := 10) (n := x.places.length) (by decide))
      rw [mul_assoc, ← hsplit, hdigits]
    have hlt : x.digits < 1 <<< 96 := by
      have hpos : 0 < 10 ^ (d.scale - x.places.length) := Nat.pow_pos (by decide)
      calc x.digits ≤ x.digits * 10 ^ (d.scale - x.places.length) := Nat.le_mul_of_pos_right _ hpos
        _ = d.coefficient := hsame
        _ < 1 <<< 96 := d.coefficient_lt
    exact hroom.kept_eq_value le_rfl (hle.trans d.scale_le) hlt rfl

/-- **A numeral counts as its own value just if it is exact.** -/
theorem CountsAs.value_eq_iff (h : x.CountsAs n) : x.value = n ↔ x.IsExact := by
  unfold CountsAs at h
  unfold IsExact
  cases hfraction : x.fraction with
  | none =>
    rw [hfraction] at h
    exact iff_of_true h (.inl rfl)
  | some f =>
    rw [hfraction] at h
    obtain ⟨k, hroom, hkept⟩ := h
    constructor
    · intro hvalue
      exact .inr ⟨hroom.decimal, by rw [hroom.toRat_decimal, hkept, hvalue]⟩
    · rintro (hnone | ⟨d, hd⟩)
      · cases hnone
      · rw [← hroom.kept_eq_of_decimal hd, hkept]

end Numeral

/-! ## Columns and agreement -/

/-- The number that a value is: integers and decimals, not floats or texts. -/
def Value.number? : Value → Option ℚ
  | int n => some n.toInt
  | uint n => some n.toNat
  | bigInt n => some n
  | decimal d => some d.toRat
  | _ => none

theorem Value.eq_of_number? {w : Value} {q : ℚ} {n : Int} (hq : w.number? = some q) (hn : w.integer? = some n) :
    q = n := by
  cases w <;> simp only [number?, integer?, Option.some.injEq, reduceCtorEq] at hq hn
  case int m => rw [← hq, ← hn]
  case uint m =>
    rw [← hq, ← hn]
    simp
  case bigInt m => rw [← hq, ← hn]
  case decimal d =>
    rw [← hq]
    exact (d.toInt?_eq_some_iff n).1 hn

/-- The integers in the range of a column. -/
def Column.Holds (c : Column) (n : Int) : Prop := if c.isUnsigned then FitsUnsigned c.bits n else FitsSigned c.bits n

section

variable {c : Column} {v w : Value} {n : Int}

theorem Column.integer_of_encode {cell : Cell} (hinteger : c.type.isInteger = true) (hnull : v.isNull = false)
    (h : c.encode v = .ok cell) : ∃ n, cell.value.integer? = some n ∧ v.integer? = some n ∧ c.Holds n := by
  unfold Holds
  cases encodes_of_encode (.inl hinteger) h with
  | null hnull' => exact absurd (hnull.symm.trans hnull') (by decide)
  | int n _ _ hsign hview hfits => exact ⟨n.toInt, rfl, hview, by rwa [hsign]⟩
  | uint n _ _ hsign hview hfits => exact ⟨n.toNat, rfl, hview, by rwa [hsign]⟩
  | text s _ htype => simp [kinds_of_isInteger hinteger] at htype
  | bytes b _ htype => simp [kinds_of_isInteger hinteger] at htype

theorem Column.encode_integer_iff (hinteger : c.type.isInteger = true) (hnull : v.isNull = false) :
    (∃ cell, c.encode v = .ok cell ∧ cell.value.integer? = some n) ↔ v.integer? = some n ∧ c.Holds n := by
  constructor
  · rintro ⟨cell, hcell, hn⟩
    obtain ⟨m, hm, hview⟩ := integer_of_encode hinteger hnull hcell
    obtain rfl : m = n := Option.some.inj (hm.symm.trans hn)
    exact hview
  · rintro ⟨hview, hfits⟩
    have hencode : c.encode v = c.encodeInteger v := by
      unfold encode
      simp [hnull, hinteger]
    unfold Holds at hfits
    unfold encodeInteger at hencode
    rw [hencode, hview]
    cases hsign : c.isUnsigned with
    | true =>
      rw [hsign] at hfits
      exact ⟨_, if_pos hfits, congrArg some (toNat_of_fits hfits)⟩
    | false =>
      rw [hsign] at hfits
      exact ⟨_, if_pos hfits, congrArg some (toInt_of_fits hfits)⟩

theorem ColumnType.agree_integer_iff {type : ColumnType} (hinteger : type.isInteger = true) (hnull : v.isNull = false) :
    type.agree v w = true ↔ ∃ n, v.integer? = some n ∧ w.integer? = some n := by
  unfold agree
  rw [hnull]
  cases hwnull : w.isNull with
  | true =>
    have hview : w.integer? = none := by cases w <;> first | rfl | cases hwnull
    simp [hview]
  | false =>
    simp only [hinteger, Bool.or_self, Bool.false_eq_true, if_false, if_true]
    generalize v.integer? = a
    generalize w.integer? = b
    constructor
    · intro h
      cases a <;> cases b <;> simp only [bothSame, Bool.false_eq_true, beq_iff_eq] at h
      exact ⟨_, rfl, congrArg some h.symm⟩
    · rintro ⟨n, rfl, rfl⟩
      exact beq_self_eq_true n

/-- **A text counts as its exact value in an integer column just if its numeral is exact.**  The column stores what the
numeral counts as, if that is an integer in its range, and nothing else; the text agrees with the values that count as
the same.  So what is stored, and every number that the text agrees with, is the exact value of the text if the numeral
is exact, and is not if it is not.  An exact numeral that is not integral is never stored and agrees with nothing. -/
theorem integer_text_is_exact_iff {s : String} {x : Numeral} (hinteger : c.type.isInteger = true)
    (htext : trimBlank s.toList = x.text) :
    (∀ n, (∃ cell, c.encode (.text s) = .ok cell ∧ cell.value.integer? = some n) ↔ x.CountsAs n ∧ c.Holds n) ∧
      (∀ w, c.type.agree (.text s) w = true ↔ ∃ n, x.CountsAs n ∧ w.integer? = some n) ∧
      (∀ cell, c.encode (.text s) = .ok cell → ∃ n, cell.value.integer? = some n ∧ (x.value = n ↔ x.IsExact)) ∧
      (∀ w q, w.number? = some q → c.type.agree (.text s) w = true → (x.value = q ↔ x.IsExact)) ∧
      (∀ (t : String) (y : Numeral), trimBlank t.toList = y.text → c.type.agree (.text s) (.text t) = true →
        x.IsExact → (x.value = y.value ↔ y.IsExact)) ∧
      (x.IsExact → (∀ n : ℤ, x.value ≠ n) →
        (∀ cell, c.encode (.text s) ≠ .ok cell) ∧ ∀ w, c.type.agree (.text s) w = false) := by
  have hstored : ∀ n, (∃ cell, c.encode (.text s) = .ok cell ∧ cell.value.integer? = some n) ↔
      x.CountsAs n ∧ c.Holds n := by
    intro n
    rw [Column.encode_integer_iff hinteger rfl, Numeral.integer?_eq_some_iff htext]
  have hagree : ∀ w, c.type.agree (.text s) w = true ↔ ∃ n, x.CountsAs n ∧ w.integer? = some n := by
    intro w
    rw [ColumnType.agree_integer_iff hinteger rfl]
    simp only [Numeral.integer?_eq_some_iff htext]
  have hcell : ∀ cell, c.encode (.text s) = .ok cell → ∃ n, cell.value.integer? = some n ∧ x.CountsAs n := by
    intro cell h
    obtain ⟨n, hn, hview, -⟩ := Column.integer_of_encode hinteger rfl h
    exact ⟨n, hn, (Numeral.integer?_eq_some_iff htext).1 hview⟩
  refine ⟨hstored, hagree, ?_, ?_, ?_, ?_⟩
  · intro cell h
    obtain ⟨n, hn, hcounts⟩ := hcell cell h
    exact ⟨n, hn, hcounts.value_eq_iff⟩
  · intro w q hq h
    obtain ⟨n, hcounts, hn⟩ := (hagree w).1 h
    rw [Value.eq_of_number? hq hn]
    exact hcounts.value_eq_iff
  · intro t y ht h hexact
    obtain ⟨n, hcounts, hn⟩ := (hagree _).1 h
    rw [hcounts.value_eq_iff.2 hexact, eq_comm]
    exact ((Numeral.integer?_eq_some_iff ht).1 hn).value_eq_iff
  · intro hexact hfraction
    constructor
    · intro cell h
      obtain ⟨n, -, hcounts⟩ := hcell cell h
      exact hfraction n (hcounts.value_eq_iff.2 hexact)
    · intro w
      by_contra h
      obtain ⟨n, hcounts, -⟩ := (hagree w).1 (eq_true_of_ne_false h)
      exact hfraction n (hcounts.value_eq_iff.2 hexact)

end

/-- A column of whole numbers. -/
def countColumn : Column := ⟨"n", .int, 8, [], 0⟩

/-- Seven, with two places. -/
def sevenWithPlaces : Numeral := ⟨.plus, [0, 7], some [0, 0], by decide⟩

theorem integer_text_is_exact_iff_seven :
    trimBlank " +07.00".toList = sevenWithPlaces.text ∧ countColumn.encode (.text " +07.00") = .ok (.int 7) ∧
      sevenWithPlaces.value = 7 := by
  have htext : trimBlank " +07.00".toList = sevenWithPlaces.text := by decide
  have hcell : countColumn.encode (.text " +07.00") = .ok (.int 7) := by cbv
  have hexact : sevenWithPlaces.IsExact :=
    .inr ⟨⟨false, 7, 0, by decide, by decide⟩, by
      rw [Numeral.value_of_positive (x := sevenWithPlaces) (d := 700) (l := 2) (by decide) (by decide) (by decide)]
      norm_num [Decimal.toRat, Decimal.mantissa]⟩
  obtain ⟨n, hn, hvalue⟩ := (integer_text_is_exact_iff (c := countColumn) rfl htext).2.2.1 _ hcell
  obtain rfl : 7 = n := Option.some.inj hn
  exact ⟨htext, hcell, hvalue.2 hexact⟩

/-- One and so little more that a decimal has no place for it. -/
def barelyMore : Numeral := ⟨.absent, [1], some (List.replicate 28 0 ++ [1]), by decide⟩

/-- **A fraction that is too small is lost**: the text is stored as one and agrees with one, but it is no integer. -/
theorem lost_fraction :
    trimBlank "1.00000000000000000000000000001".toList = barelyMore.text ∧ (∀ n : ℤ, barelyMore.value ≠ n) ∧
      countColumn.encode (.text "1.00000000000000000000000000001") = .ok (.int 1) ∧
      countColumn.type.agree (.text "1.00000000000000000000000000001") (.int 1) = true := by
  refine ⟨by decide, ?_, by rfl, by rfl⟩
  intro n h
  have hvalue : barelyMore.value = (10 ^ 29 + 1 : Nat) / 10 ^ 29 :=
    Numeral.value_of_positive (by decide) (by decide) (by decide)
  rw [hvalue, div_eq_iff (by positivity)] at h
  have hint : (10 ^ 29 + 1 : ℤ) = n * 10 ^ 29 := by exact_mod_cast h
  omega

end RowStore

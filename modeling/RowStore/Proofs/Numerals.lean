import RowStore.Proofs.CellOrder
import RowStore.Number.Decimal.Text

/-!
# Decimal numerals

A sign or none, digits, and perhaps a point and digits behind it (`Numeral`), with its exact value.  Reading it as an
integer takes it as it is and refuses a point (`integer?_text`).  Reading it as a decimal rounds it, a half away from
zero, to the most places that leave a coefficient which is not too long (`Numeral.Room`, `ofText?_text`).
-/
namespace RowStore

/-! ## Digits -/

def digitChar (d : Fin 10) : Char := Char.ofNat ('0'.toNat + d)

theorem digit?_digitChar : ∀ d : Fin 10, digit? (digitChar d) = some d.val := by decide

theorem isDigit_digitChar : ∀ d : Fin 10, (digitChar d).isDigit = true := by decide

theorem digitChar_ne : ∀ d : Fin 10, digitChar d ≠ '.' ∧ digitChar d ≠ '_' ∧ digitChar d ≠ '-' ∧ digitChar d ≠ '+' ∧
    digitChar d ≠ 'e' ∧ digitChar d ≠ 'E' := by decide

/-- The number that digits write behind the digits of another one. -/
def behind (n : Nat) (ds : List (Fin 10)) : Nat := ds.foldl (fun n d => 10 * n + d.val) n

theorem behind_cons (n : Nat) (d : Fin 10) (ds : List (Fin 10)) : behind n (d :: ds) = behind (10 * n + d) ds := rfl

theorem behind_append (n : Nat) (ds es : List (Fin 10)) : behind n (ds ++ es) = behind (behind n ds) es :=
  List.foldl_append

theorem le_behind : ∀ (ds : List (Fin 10)) (n : Nat), n * 10 ^ ds.length ≤ behind n ds
  | [], n => by simp [behind]
  | d :: ds, n => by
    have h := le_behind ds (10 * n + d)
    rw [behind_cons, List.length_cons, pow_succ]
    calc n * (10 ^ ds.length * 10) = 10 * n * 10 ^ ds.length := by ring
      _ ≤ (10 * n + d) * 10 ^ ds.length := Nat.mul_le_mul_right _ (by omega)
      _ ≤ behind (10 * n + d) ds := h

theorem behind_lt : ∀ (ds : List (Fin 10)) (n : Nat), behind n ds < (n + 1) * 10 ^ ds.length
  | [], n => by simp [behind]
  | d :: ds, n => by
    have h := behind_lt ds (10 * n + d)
    have hd := d.isLt
    rw [behind_cons, List.length_cons, pow_succ]
    calc behind (10 * n + d) ds < (10 * n + d + 1) * 10 ^ ds.length := h
      _ ≤ (10 * n + 10) * 10 ^ ds.length := Nat.mul_le_mul_right _ (by omega)
      _ = (n + 1) * (10 ^ ds.length * 10) := by ring

theorem self_le_behind (ds : List (Fin 10)) (n : Nat) : n ≤ behind n ds :=
  (Nat.le_mul_of_pos_right n (Nat.pow_pos (by decide))).trans (le_behind ds n)

theorem mapM_digit? : ∀ ds : List (Fin 10), (ds.map digitChar).mapM digit? = some (ds.map Fin.val)
  | [] => rfl
  | d :: ds => by simp [digit?_digitChar, mapM_digit? ds]

theorem ofDigits_val (ds : List (Fin 10)) : ofDigits (ds.map Fin.val) = behind 0 ds := by
  unfold ofDigits behind
  rw [List.foldl_map]

/-! ## Numerals -/

/-- What stands in front of a numeral. -/
inductive Sign
  | absent
  | plus
  | minus
  deriving DecidableEq

def Sign.text : Sign → List Char
  | absent => []
  | plus => ['+']
  | minus => ['-']

/-- A decimal numeral. -/
structure Numeral where
  sign : Sign
  whole : List (Fin 10)
  /-- The digits behind the point, if there is one. -/
  fraction : Option (List (Fin 10))
  whole_ne_nil : whole ≠ []

namespace Numeral

variable (x : Numeral)

def fractionText : Option (List (Fin 10)) → List Char
  | none => []
  | some f => '.' :: f.map digitChar

def text : List Char := x.sign.text ++ (x.whole.map digitChar ++ fractionText x.fraction)

def places : List (Fin 10) := x.fraction.getD []

/-- All digits of the numeral, as one number. -/
def digits : Nat := behind 0 (x.whole ++ x.places)

def signed {R : Type} [Neg R] (q : R) : R := if x.sign = .minus then -q else q

/-- The exact value. -/
def value : ℚ := x.signed (x.digits / 10 ^ x.places.length)

/-! ## Reading an integer -/

theorem integer?_of_digit {c : Char} (hminus : c ≠ '-') (hplus : c ≠ '+') (s : List Char) :
    integer? (c :: s) = (groupedDigits? (c :: s)).map Int.ofNat := by
  unfold integer?
  split <;> simp_all

theorem filter_whole (ds : List (Fin 10)) : (ds.map digitChar).filter (· != '_') = ds.map digitChar := by
  rw [List.filter_eq_self]
  intro c hc
  obtain ⟨d, -, rfl⟩ := List.mem_map.1 hc
  simp [digitChar_ne]

theorem groupedDigits?_whole {ds : List (Fin 10)} (hne : ds ≠ []) :
    groupedDigits? (ds.map digitChar) = some (behind 0 ds) := by
  obtain ⟨d, es, rfl⟩ := List.exists_cons_of_ne_nil hne
  unfold groupedDigits? digits?
  rw [filter_whole, mapM_digit?, Option.map_some, ofDigits_val]
  simp [digitChar_ne]

theorem groupedDigits?_point (ds : List (Fin 10)) (s : List Char) :
    groupedDigits? (ds.map digitChar ++ '.' :: s) = none := by
  have hpoint : ((ds.map digitChar ++ '.' :: s).filter (· != '_')).mapM digit? = none := by
    rw [List.filter_append, filter_whole, List.filter_cons_of_pos (by decide), List.mapM_append, mapM_digit?,
      List.mapM_cons, show digit? '.' = none by decide]
    rfl
  unfold groupedDigits? digits?
  rw [hpoint, Option.map_none, ite_self, ite_self]

theorem integer?_signed (s : List Char) (h : ∃ d rest, s = digitChar d :: rest) :
    integer? (x.sign.text ++ s) = (groupedDigits? s).map fun n : Nat => x.signed (n : ℤ) := by
  unfold signed
  cases x.sign with
  | absent =>
    obtain ⟨d, rest, rfl⟩ := h
    exact integer?_of_digit (digitChar_ne d).2.2.1 (digitChar_ne d).2.2.2.1 rest
  | plus => rfl
  | minus =>
    simp only [Sign.text, List.singleton_append, integer?, if_true]
    cases groupedDigits? s <;> rfl

/-- **A numeral without a point is read as the integer that it is**, one with a point is not. -/
theorem integer?_text : integer? x.text = if x.fraction.isNone then some (x.signed (x.digits : ℤ)) else none := by
  obtain ⟨d, ds, hwhole⟩ := List.exists_cons_of_ne_nil x.whole_ne_nil
  unfold text digits places
  rw [integer?_signed x _ ⟨d, _, by rw [hwhole]; rfl⟩]
  cases x.fraction with
  | none =>
    rw [fractionText, List.append_nil, groupedDigits?_whole x.whole_ne_nil]
    simp
  | some f =>
    rw [fractionText, groupedDigits?_point]
    rfl

/-! ## Rounding -/

/-- The digits of the numeral rounded to some places, a half away from zero. -/
def rounded (k : Nat) : Nat := roundHalfUp (x.digits * pow10 k) (pow10 x.places.length)

def kept (k : Nat) : ℚ := x.signed (x.rounded k / 10 ^ k)

/-- The number of places that a decimal has room for: the most, up to twenty-eight, for which the coefficient is not
too long. -/
structure Room (k : Nat) : Prop where
  le_length : k ≤ x.places.length
  le_scale : k ≤ 28
  rounded_lt : x.rounded k < 1 <<< 96
  most : ∀ j, k < j → j ≤ x.places.length → j ≤ 28 → 1 <<< 96 ≤ x.rounded j

theorem rounded_eq {k : Nat} (h : k ≤ x.places.length) :
    x.rounded k = roundHalfUp x.digits (10 ^ (x.places.length - k)) := by
  have hpos : 0 < 10 ^ k := Nat.pow_pos (by decide)
  have hsplit : 10 ^ x.places.length = 10 ^ (x.places.length - k) * 10 ^ k := by
    rw [← pow_add, Nat.sub_add_cancel h]
  unfold rounded roundHalfUp pow10
  rw [Nat.pow_eq, Nat.pow_eq, hsplit]
  rw [show 2 * (x.digits * 10 ^ k) + 10 ^ (x.places.length - k) * 10 ^ k =
      (2 * x.digits + 10 ^ (x.places.length - k)) * 10 ^ k by ring,
    show 2 * (10 ^ (x.places.length - k) * 10 ^ k) = 2 * 10 ^ (x.places.length - k) * 10 ^ k by ring,
    Nat.mul_div_mul_right _ _ hpos]

theorem Room.unique {j k : Nat} (hj : x.Room j) (hk : x.Room k) : j = k := by
  have h := hj.rounded_lt
  have h' := hk.rounded_lt
  by_contra hne
  rcases Nat.lt_or_gt_of_ne hne with hlt | hlt
  · have := hj.most k hlt hk.le_length hk.le_scale
    omega
  · have := hk.most j hlt hj.le_length hj.le_scale
    omega

/-- What is left of a number when it is read as a decimal: its digits, rounded to the places that there is room for. -/
def Rounds : Option Decimal.Parts → Prop
  | some (coefficient, scale) => x.Room scale ∧ coefficient = x.rounded scale
  | none => ∀ k, ¬x.Room k

/-- More digits do not make a long coefficient shorter. -/
theorem le_rounded {n j : Nat} {taken rest : List (Fin 10)} (hdigits : x.whole ++ x.places = taken ++ rest)
    (hn : n ≤ behind 0 taken) (hj : j ≤ x.places.length) (hrest : x.places.length - j ≤ rest.length) :
    n ≤ x.rounded j := by
  have hpos : 0 < 10 ^ (x.places.length - j) := Nat.pow_pos (by decide)
  have hle : n * 10 ^ (x.places.length - j) ≤ x.digits :=
    calc n * 10 ^ (x.places.length - j) ≤ behind 0 taken * 10 ^ rest.length :=
          Nat.mul_le_mul hn (Nat.pow_le_pow_right (by decide) hrest)
      _ ≤ behind (behind 0 taken) rest := le_behind _ _
      _ = x.digits := by rw [digits, hdigits, behind_append]
  rw [rounded_eq x hj, roundHalfUp, Nat.le_div_iff_mul_le (by omega)]
  calc n * (2 * 10 ^ (x.places.length - j)) = 2 * (n * 10 ^ (x.places.length - j)) := by ring
    _ ≤ 2 * x.digits + 10 ^ (x.places.length - j) := by omega

/-- The next digit decides which way a coefficient is rounded. -/
theorem rounded_of_next {taken rest : List (Fin 10)} {d : Fin 10} {k : Nat}
    (hplaces : x.places = taken ++ d :: rest) (hk : taken.length = k) :
    x.rounded k = behind 0 (x.whole ++ taken) + if d.val < 5 then 0 else 1 := by
  have hlength : x.places.length - k = rest.length + 1 := by
    rw [hplaces, List.length_append, List.length_cons]
    omega
  have hle : k ≤ x.places.length := by
    rw [hplaces, List.length_append]
    omega
  have hdigits : x.digits = behind (10 * behind 0 (x.whole ++ taken) + d) rest := by
    rw [digits, hplaces, ← List.append_assoc, behind_append, behind_cons]
  have hlow := le_behind rest (10 * behind 0 (x.whole ++ taken) + d)
  have hhigh := behind_lt rest (10 * behind 0 (x.whole ++ taken) + d)
  have hd := d.isLt
  rw [rounded_eq x hle, hlength, hdigits, roundHalfUp, pow_succ]
  generalize behind 0 (x.whole ++ taken) = c at *
  generalize behind (10 * c + d) rest = n at *
  have hpos : 0 < 10 ^ rest.length := Nat.pow_pos (by decide)
  generalize 10 ^ rest.length = unit at *
  split
  · have hround : (10 * c + d + 1) * unit ≤ (10 * c + 5) * unit := Nat.mul_le_mul_right _ (by omega)
    exact Nat.div_eq_of_lt_le (by nlinarith) (by nlinarith)
  · have hround : (10 * c + 5) * unit ≤ (10 * c + d) * unit := Nat.mul_le_mul_right _ (by omega)
    have hcarry : (10 * c + d + 1) * unit ≤ (10 * c + 10) * unit := Nat.mul_le_mul_right _ (by omega)
    exact Nat.div_eq_of_lt_le (by nlinarith) (by nlinarith)

/-! ## Reading a decimal -/

open Decimal

theorem all_digits (ds : List (Fin 10)) : (ds.map digitChar).all (fun c => c.isDigit || c == '_') = true := by
  rw [List.all_map, List.all_eq_true]
  intro d _
  simp [isDigit_digitChar]

/-- Where a coefficient is too long for one more digit, there is no room for more places. -/
theorem long_beyond {taken rest : List (Fin 10)} {d : Fin 10} {k : Nat} (hplaces : x.places = taken ++ d :: rest)
    (hk : taken.length = k) (hstop : k = 28 ∨ 1 <<< 96 ≤ 10 * behind 0 (x.whole ++ taken) + d) :
    ∀ j, k < j → j ≤ x.places.length → j ≤ 28 → 1 <<< 96 ≤ x.rounded j := by
  intro j hkj hj hj28
  have hdigits : x.whole ++ x.places = (x.whole ++ taken ++ [d]) ++ rest := by
    rw [hplaces]
    simp
  have hlong : 1 <<< 96 ≤ behind 0 (x.whole ++ taken ++ [d]) := by
    rw [behind_append]
    show _ ≤ 10 * behind 0 (x.whole ++ taken) + d.val
    omega
  have hlength : x.places.length = k + (rest.length + 1) := by rw [hplaces, List.length_append, List.length_cons, hk]
  exact le_rounded x hdigits hlong hj (by omega)

/-- The longest coefficient, rounded up, loses a digit, and the number a place. -/
theorem rounds_carry {taken rest : List (Fin 10)} {k : Nat} (hplaces : x.places = taken ++ rest)
    (hk : taken.length = k) (hscale : k ≤ 28) (hlast : behind 0 (x.whole ++ taken) + 1 = 1 <<< 96)
    (hlong : ∀ j, k ≤ j → j ≤ x.places.length → j ≤ 28 → 1 <<< 96 ≤ x.rounded j) :
    x.Rounds (if k = 0 then none else some ((behind 0 (x.whole ++ taken) + 5) / 10, k - 1)) := by
  cases taken using List.reverseRecOn with
  | nil =>
    obtain rfl : 0 = k := hk
    intro j hj
    have hle := hlong j (Nat.zero_le j) hj.le_length hj.le_scale
    exact absurd hj.rounded_lt (by omega)
  | append_singleton taken e =>
    have hk' : taken.length + 1 = k := by rw [← hk, List.length_append, List.length_singleton]
    have hplaces' : x.places = taken ++ e :: rest := by rw [hplaces, List.append_assoc, List.singleton_append]
    have hround := rounded_of_next x hplaces' (k := k - 1) (by omega)
    have hsplit : behind 0 (x.whole ++ (taken ++ [e])) = 10 * behind 0 (x.whole ++ taken) + e.val := by
      rw [← List.append_assoc, behind_append]
      rfl
    have hlength : taken.length ≤ x.places.length := by
      rw [hplaces', List.length_append]
      omega
    have he := e.isLt
    -- the carry gives up the last digit that was taken, which rounds the shorter coefficient in turn
    rw [show 1 <<< 96 = 79228162514264337593543950336 by decide] at *
    have hcarry : x.rounded (k - 1) = (behind 0 (x.whole ++ (taken ++ [e])) + 5) / 10 := by
      rw [hround]
      split <;> omega
    rw [if_neg (by omega)]
    exact ⟨⟨by omega, by omega, by omega, fun j hj => hlong j (by omega)⟩, hcarry.symm⟩

/-- **The first digit without room rounds**, and from there on there is no room. -/
theorem rounds_roundAway {taken rest : List (Fin 10)} {d : Fin 10} {k : Nat} (hplaces : x.places = taken ++ d :: rest)
    (hk : taken.length = k) (hscale : k ≤ 28) (hlt : behind 0 (x.whole ++ taken) < 1 <<< 96)
    (hstop : k = 28 ∨ 1 <<< 96 ≤ 10 * behind 0 (x.whole ++ taken) + d) :
    x.Rounds (roundAway (behind 0 (x.whole ++ taken)) k d (rest.map digitChar)) := by
  have hle : k ≤ x.places.length := by
    rw [hplaces, List.length_append]
    omega
  have hnext := rounded_of_next x hplaces hk
  have hbeyond := long_beyond x hplaces hk hstop
  unfold roundAway
  rw [all_digits]
  simp only [Bool.not_true, Bool.false_eq_true, if_false]
  by_cases hdown : d.val < 5
  · rw [if_pos hdown] at hnext ⊢
    exact ⟨⟨hle, hscale, by omega, hbeyond⟩, hnext.symm⟩
  rw [if_neg hdown] at hnext ⊢
  by_cases hroom : behind 0 (x.whole ++ taken) + 1 < 1 <<< 96
  · rw [if_pos hroom]
    exact ⟨⟨hle, hscale, by omega, hbeyond⟩, hnext.symm⟩
  rw [if_neg hroom]
  -- the coefficient that is rounded up has one bit too many
  refine rounds_carry x hplaces hk hscale (by omega) fun j hkj => ?_
  rcases hkj.eq_or_lt with rfl | hkj
  · intro _ _
    omega
  · exact hbeyond j hkj

/-- Behind the point digits are taken as long as there is room. -/
theorem rounds_readOn_fraction : ∀ (rest taken : List (Fin 10)) (k : Nat), x.places = taken ++ rest → taken.length = k →
    k ≤ 28 → behind 0 (x.whole ++ taken) < 1 <<< 96 →
      x.Rounds (readOn (behind 0 (x.whole ++ taken)) k true true (rest.map digitChar))
  | [], taken, k, hplaces, hk, hscale, hlt => by
    rw [List.append_nil] at hplaces
    have hlength : k = x.places.length := by rw [hplaces, hk]
    have hround : x.rounded k = behind 0 (x.whole ++ taken) := by
      rw [rounded_eq x hlength.le, hlength, Nat.sub_self, digits, hplaces]
      unfold roundHalfUp
      omega
    exact ⟨⟨hlength.le, hscale, by omega, fun j hkj hj => absurd hj (by omega)⟩, hround.symm⟩
  | d :: rest, taken, k, hplaces, hk, hscale, hlt => by
    have hmore : behind 0 (x.whole ++ (taken ++ [d])) = 10 * behind 0 (x.whole ++ taken) + d.val := by
      rw [← List.append_assoc, behind_append]
      rfl
    rw [List.map_cons, readOn, digit?_digitChar]
    simp only [Bool.true_and, beq_iff_eq, if_true]
    by_cases hfull : k = 28
    · rw [if_pos hfull]
      exact rounds_roundAway x hplaces hk hscale hlt (.inl hfull)
    rw [if_neg hfull]
    by_cases hlong : 1 <<< 96 ≤ 10 * behind 0 (x.whole ++ taken) + d.val
    · rw [if_pos hlong]
      exact rounds_roundAway x hplaces hk hscale hlt (.inr hlong)
    rw [if_neg hlong, ← hmore]
    exact rounds_readOn_fraction rest (taken ++ [d]) (k + 1) (by rw [hplaces]; simp) (by simp [hk]) (by omega)
      (by omega)

theorem readOn_whole : ∀ (ds : List (Fin 10)) (n : Nat) (started : Bool) (s : List Char), behind n ds < 1 <<< 96 →
    readOn n 0 false started (ds.map digitChar ++ s) = readOn (behind n ds) 0 false (started || !ds.isEmpty) s
  | [], n, started, s, _ => by simp [behind]
  | d :: ds, n, started, s, hlt => by
    have hle := self_le_behind ds (10 * n + d.val)
    rw [behind_cons] at hlt
    rw [List.map_cons, List.cons_append, readOn, digit?_digitChar]
    simp only [Bool.false_and, Bool.false_eq_true, if_false]
    rw [if_neg (by omega), readOn_whole ds (10 * n + d.val) true s hlt, behind_cons]
    simp

theorem readOn_too_long : ∀ (ds : List (Fin 10)) (n : Nat) (started : Bool) (s : List Char), n < 1 <<< 96 →
    1 <<< 96 ≤ behind n ds → readOn n 0 false started (ds.map digitChar ++ s) = none
  | [], n, _, _, hn, hlong => absurd hn (Nat.not_lt.2 hlong)
  | d :: ds, n, started, s, _, hlong => by
    rw [List.map_cons, List.cons_append, readOn, digit?_digitChar]
    simp only [Bool.false_and, Bool.false_eq_true, if_false]
    by_cases hover : 1 <<< 96 ≤ 10 * n + d.val
    · rw [if_pos hover]
    · rw [if_neg hover]
      exact readOn_too_long ds (10 * n + d.val) true s (by omega) hlong

/-- **Reading on from the start rounds** to the places that there is room for. -/
theorem rounds_readOn : x.Rounds (readOn 0 0 false false (x.whole.map digitChar ++ fractionText x.fraction)) := by
  by_cases hlong : 1 <<< 96 ≤ behind 0 x.whole
  · rw [readOn_too_long x.whole 0 false _ (by decide) hlong]
    intro k hk
    have hle := le_rounded x rfl hlong hk.le_length (Nat.sub_le _ _)
    exact absurd hk.rounded_lt (by omega)
  have hne : x.whole.isEmpty = false := List.isEmpty_eq_false_iff.2 x.whole_ne_nil
  have hwhole : behind 0 (x.whole ++ []) < 1 <<< 96 := by
    rw [List.append_nil]
    omega
  have hread := rounds_readOn_fraction x x.places [] 0 rfl rfl (by decide) hwhole
  rw [readOn_whole x.whole 0 false _ (by omega), hne]
  rw [List.append_nil] at hread
  unfold places at hread
  cases hfraction : x.fraction with
  | none =>
    rw [hfraction] at hread
    exact hread
  | some f =>
    rw [hfraction] at hread
    exact hread

theorem mem_text_ne_mark {c : Char} (h : c ∈ x.text) : c ≠ 'e' ∧ c ≠ 'E' := by
  unfold text at h
  rw [List.mem_append, List.mem_append] at h
  rcases h with h | h | h
  · cases hsign : x.sign with
    | absent => simp [hsign, Sign.text] at h
    | plus => simp_all [Sign.text]
    | minus => simp_all [Sign.text]
  · obtain ⟨d, -, rfl⟩ := List.mem_map.1 h
    simp [digitChar_ne]
  · cases hfraction : x.fraction with
    | none => simp [hfraction, fractionText] at h
    | some f =>
      rw [hfraction, fractionText, List.mem_cons] at h
      rcases h with rfl | h
      · decide
      · obtain ⟨d, -, rfl⟩ := List.mem_map.1 h
        simp [digitChar_ne]

theorem ofScientific?_text : ofScientific? x.text = none := by
  have hdrop : x.text.dropWhile (fun c => !(c == 'e' || c == 'E')) = [] := by
    rw [List.dropWhile_eq_nil_iff]
    intro c hc
    simp [x.mem_text_ne_mark hc]
  unfold ofScientific?
  simp only [hdrop]

theorem splitSign_text : splitSign x.text =
    (decide (x.sign = .minus), x.whole.map digitChar ++ fractionText x.fraction) := by
  obtain ⟨d, ds, hwhole⟩ := List.exists_cons_of_ne_nil x.whole_ne_nil
  unfold text
  cases x.sign with
  | absent =>
    rw [hwhole, Sign.text, List.nil_append, List.map_cons, List.cons_append]
    unfold splitSign
    split
    · simp_all [digitChar_ne]
    · simp_all [digitChar_ne]
    · rfl
  | plus => rfl
  | minus => rfl

end Numeral

/-! ## Decimals as numbers -/

namespace Decimal

def toRat (d : Decimal) : ℚ := d.mantissa / 10 ^ d.scale

theorem abs_toRat (d : Decimal) : |d.toRat| = d.coefficient / 10 ^ d.scale := by
  unfold toRat mantissa
  rw [abs_div]
  split <;> simp

theorem toInt?_eq_some_iff (d : Decimal) (n : Int) : d.toInt? = some n ↔ d.toRat = n := by
  have hpos : (0 : ℚ) < 10 ^ d.scale := by positivity
  have hpow : (pow10 d.scale : ℤ) ≠ 0 := by
    have := pow10_pos d.scale
    omega
  have hrat : d.toRat = n ↔ d.mantissa = n * pow10 d.scale := by
    unfold toRat pow10
    rw [div_eq_iff hpos.ne', Nat.pow_eq]
    exact_mod_cast Iff.rfl
  rw [hrat]
  unfold toInt?
  constructor
  · intro h
    split at h
    · cases h
      exact (Int.ediv_mul_cancel (Int.dvd_of_emod_eq_zero ‹_›)).symm
    · cases h
  · intro h
    rw [h, if_pos (Int.mul_emod_left _ _), Int.mul_ediv_cancel _ hpow]

end Decimal

namespace Numeral

variable (x : Numeral)

open Decimal

/-- The decimal that keeps as many places as there is room for. -/
def Room.decimal {x : Numeral} {k : Nat} (h : x.Room k) : Decimal :=
  ⟨decide (x.sign = .minus) && x.rounded k != 0, x.rounded k, k, h.rounded_lt, h.le_scale⟩

theorem Room.toRat_decimal {x : Numeral} {k : Nat} (h : x.Room k) : h.decimal.toRat = x.kept k := by
  unfold decimal toRat mantissa kept signed
  by_cases hminus : x.sign = .minus
  · by_cases hzero : x.rounded k = 0
    · simp [hminus, hzero]
    · simp [hminus, hzero, neg_div]
  · simp [hminus]

/-- **A numeral is read as the decimal that there is room for**, and not at all if there is no room for its whole
part. -/
theorem ofText?_text : (∃ (k : Nat) (h : x.Room k), ofText? x.text = some h.decimal) ∨
    (∀ k, ¬x.Room k) ∧ ofText? x.text = none := by
  have hread := x.rounds_readOn
  unfold ofText? ofPositional?
  rw [x.ofScientific?_text, x.splitSign_text, Option.or_none]
  cases hparts : readOn 0 0 false false (x.whole.map digitChar ++ fractionText x.fraction) with
  | none =>
    rw [hparts] at hread
    exact .inr ⟨hread, by simp [hparts]⟩
  | some parts =>
    obtain ⟨coefficient, scale⟩ := parts
    rw [hparts] at hread
    obtain ⟨hroom, rfl⟩ := hread
    have hparts' : ofParts? (decide (x.sign = .minus) && x.rounded scale != 0) (x.rounded scale) scale =
        some hroom.decimal := dif_pos ⟨hroom.rounded_lt, hroom.le_scale⟩
    exact .inl ⟨scale, hroom, by simp [hparts, hparts']⟩

end Numeral
end RowStore

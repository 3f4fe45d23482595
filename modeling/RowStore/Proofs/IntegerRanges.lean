import RowStore.Proofs.IntegerTexts
import RowStore.Proofs.RowRoundTrips

/-!
# The range of an integer column

An integer column of any declared length has words of one to eight bytes (`Column.width`).  A cell is checked against
that width in two ways.  Who encodes compares an integer of any size with the limits of the width and then narrows it to a word
(`Column.encodeByLimits`); who decodes has a word already and looks at what is left of it when the bits of the width are
shifted out (`Column.decodeByShifts?`), which must not be a shift by all bits of the word.  Both are the range of the
column (`encodeInteger_eq_byLimits`, `decodeByShifts?_eq`), so a cell can be read just if it is the encoding of some
value, just if it holds an integer in the range (`integer_range_of_cells`).
-/
namespace RowStore

/-! ## The range -/

/-- The bits of a column's words: those of as many bytes as are declared, but of one at least and of eight at most. -/
def Column.width (c : Column) : Nat := 8 * max 1 (min c.length 8)

theorem Column.bits_eq_width (c : Column) : c.bits = c.width := by
  unfold bits width
  rcases Nat.eq_zero_or_pos c.length with hzero | hpos
  · rw [hzero, integerBits_zero]
    rfl
  · rcases Nat.le_total c.length 8 with hle | hge
    · rw [integerBits_of_le hpos hle, Nat.min_eq_left hle, Nat.max_eq_right hpos]
    · rw [integerBits_of_ge hge, Nat.min_eq_right hge]
      rfl

/-- The integers of a column: those of its width with a sign or without. -/
def Column.range (c : Column) : Set Int :=
  if c.isUnsigned then Set.Ico 0 (2 ^ c.width) else Set.Ico (-2 ^ (c.width - 1)) (2 ^ (c.width - 1))

/-- The integer cells of a column: words with its sign that hold an integer in its range. -/
def Column.InRange (c : Column) : Cell → Prop
  | .int n => c.isUnsigned = false ∧ n.toInt ∈ c.range
  | .uint n => c.isUnsigned = true ∧ (n.toNat : Int) ∈ c.range
  | _ => False

theorem one_le_bits (c : Column) : 1 ≤ c.bits := by
  unfold Column.bits integerBits
  omega

theorem cast_shiftLeft (bits : Nat) : ((1 <<< bits : Nat) : Int) = 2 ^ bits := by
  rw [Nat.one_shiftLeft]
  norm_cast

theorem fitsSigned_iff {bits : Nat} {n : Int} :
    FitsSigned bits n ↔ -2 ^ (bits - 1) ≤ n ∧ n < 2 ^ (bits - 1) := by
  rw [← cast_shiftLeft]

theorem fitsUnsigned_iff {bits : Nat} {n : Int} : FitsUnsigned bits n ↔ 0 ≤ n ∧ n < 2 ^ bits := by
  rw [← cast_shiftLeft]

section

variable {c : Column} {v : Value} {cell : Cell} {n : Int}

theorem mem_range_of_signed (hsign : c.isUnsigned = false) : n ∈ c.range ↔ FitsSigned c.bits n := by
  rw [Column.range, hsign, if_neg Bool.false_ne_true, fitsSigned_iff, c.bits_eq_width, Set.mem_Ico]

theorem mem_range_of_unsigned (hsign : c.isUnsigned = true) : n ∈ c.range ↔ FitsUnsigned c.bits n := by
  rw [Column.range, hsign, if_pos rfl, fitsUnsigned_iff, c.bits_eq_width, Set.mem_Ico]

theorem mem_range_iff : n ∈ c.range ↔ c.Holds n := by
  unfold Column.Holds
  cases hsign : c.isUnsigned with
  | true => exact mem_range_of_unsigned hsign
  | false => exact mem_range_of_signed hsign

theorem inRange_iff_stores (hinteger : c.type.isInteger = true) (hnull : cell ≠ .null) :
    c.InRange cell ↔ c.Stores cell := by
  obtain ⟨hstring, hbytes, -⟩ := Column.kinds_of_isInteger hinteger
  cases cell with
  | null => exact absurd rfl hnull
  | int n => exact ⟨fun h => ⟨hinteger, h.1, (mem_range_of_signed h.1).1 h.2⟩,
      fun h => ⟨h.2.1, (mem_range_of_signed h.2.1).2 h.2.2⟩⟩
  | uint n => exact ⟨fun h => ⟨hinteger, h.1, (mem_range_of_unsigned h.1).1 h.2⟩,
      fun h => ⟨h.2.1, (mem_range_of_unsigned h.2.1).2 h.2.2⟩⟩
  | text s => simp [Column.InRange, Column.Stores, hstring]
  | bytes b => simp [Column.InRange, Column.Stores, hbytes]
  | double x => exact Iff.rfl
  | decimal x => exact Iff.rfl

end

/-! ## Words are shifted by less than their bits -/

/-- A signed word shifted right, its sign kept.  There is no shift by all its bits or more. -/
def shiftSigned? (n : Int64) (count : Nat) : Option Int64 :=
  if count < 64 then some (n >>> Int64.ofNat count) else none

/-- An unsigned word shifted right.  There is no shift by all its bits or more. -/
def shiftUnsigned? (n : UInt64) (count : Nat) : Option UInt64 :=
  if count < 64 then some (n >>> UInt64.ofNat count) else none

theorem toInt_shift {n : Int64} {count : Nat} (h : count < 64) :
    (n >>> Int64.ofNat count).toInt = n.toInt / 2 ^ count := by
  have hcounts : ∀ k : Fin 64, ((Int64.ofNat k).toBitVec.smod 64).toNat = k := by decide
  have hcount : ((Int64.ofNat count).toBitVec.smod 64).toNat = count := hcounts ⟨count, h⟩
  rw [← Int64.toInt_toBitVec, Int64.toBitVec_shiftRight, BitVec.sshiftRight', hcount, BitVec.toInt_sshiftRight,
    Int64.toInt_toBitVec, Int.shiftRight_eq_div_pow]
  norm_cast

theorem toNat_shift {n : UInt64} {count : Nat} (h : count < 64) :
    (n >>> UInt64.ofNat count).toNat = n.toNat / 2 ^ count := by
  have hsize : count < UInt64.size := h.trans (by decide)
  rw [UInt64.toNat_shiftRight, UInt64.toNat_ofNat_of_lt' hsize, Nat.mod_eq_of_lt h, Nat.shiftRight_eq_div_pow]

/-- Whether a signed word fits so many bits: without all of them but the sign, only the sign is left. -/
def signedFits? (bits : Nat) (n : Int64) : Option Bool :=
  (shiftSigned? n (bits - 1)).map fun rest => rest == 0 || rest == -1

/-- Whether an unsigned word fits so many bits: without them nothing is left.  All its bits it fits in any case. -/
def unsignedFits? (bits : Nat) (n : UInt64) : Option Bool :=
  if bits = 64 then some true else (shiftUnsigned? n bits).map (· == 0)

theorem signedFits?_eq {bits : Nat} (hpos : 1 ≤ bits) (hle : bits ≤ 64) (n : Int64) :
    signedFits? bits n = some (decide (FitsSigned bits n.toInt)) := by
  have hcount : bits - 1 < 64 := by omega
  have hrest := toInt_shift (n := n) hcount
  have hpow : (0 : Int) < 2 ^ (bits - 1) := by positivity
  unfold signedFits? shiftSigned?
  rw [if_pos hcount, Option.map_some, Option.some_inj, Bool.eq_iff_iff, Bool.or_eq_true, beq_iff_eq, beq_iff_eq,
    decide_eq_true_iff, ← Int64.toInt_inj, ← Int64.toInt_inj, hrest, fitsSigned_iff]
  -- the quotient rounds down, so it is -1 from the least integer of the width on
  show n.toInt / 2 ^ (bits - 1) = 0 ∨ n.toInt / 2 ^ (bits - 1) = -1 ↔ _
  rw [Int.ediv_eq_iff_of_pos hpow, Int.ediv_eq_iff_of_pos hpow]
  omega

theorem unsignedFits?_eq {bits : Nat} (hle : bits ≤ 64) (n : UInt64) :
    unsignedFits? bits n = some (decide (FitsUnsigned bits n.toNat)) := by
  have hcast : FitsUnsigned bits n.toNat ↔ n.toNat < 2 ^ bits := by
    rw [fitsUnsigned_iff, and_iff_right (Int.natCast_nonneg _)]
    norm_cast
  unfold unsignedFits? shiftUnsigned?
  split
  · rename_i hbits
    rw [eq_comm, Option.some_inj, decide_eq_true_iff, hcast, hbits]
    exact n.toNat_lt
  · rename_i hbits
    have hcount : bits < 64 := by omega
    rw [if_pos hcount, Option.map_some, Option.some_inj, Bool.eq_iff_iff, beq_iff_eq, decide_eq_true_iff,
      ← UInt64.toNat_inj, toNat_shift hcount, hcast]
    exact Nat.div_eq_zero_iff_lt (by positivity)

/-! ## The two ways to check -/

namespace Column

variable {c : Column} {v : Value} {cell : Cell}

/-- Encodes an integer: compares it with the limits of the width, and then makes it a word if there is one. -/
def encodeByLimits (c : Column) (value : Value) : Except Error Cell :=
  match value.integer? with
  | none => c.reject (.notInteger value)
  | some n =>
    if c.isUnsigned then
      if n < 0 ∨ 2 ^ c.width - 1 < n then c.reject (.outOfRange n c.width true)
      else ((Value.uint64? n).map fun word => .ok (.uint word)).getD (c.reject (.outOfRange n c.width true))
    else if n < -2 ^ (c.width - 1) ∨ 2 ^ (c.width - 1) ≤ n then c.reject (.outOfRange n c.width false)
    else ((Value.int64? n).map fun word => .ok (.int word)).getD (c.reject (.outOfRange n c.width false))

/-- Decodes an integer: shifts the width out of its word and looks at what is left.  Nothing if a shift is not one. -/
def decodeByShifts? (c : Column) (tuple : Tuple) : Option (Except Error Value) :=
  match tuple.slot c.ordinal, !c.isUnsigned with
  | .error e, _ => some (.error e)
  | .ok .null, _ => some (.ok .null)
  | .ok (.int n), true =>
    (signedFits? c.width n).map fun fits => if fits then .ok (.int n) else .error (.engine .dataMismatch)
  | .ok (.uint n), false =>
    (unsignedFits? c.width n).map fun fits => if fits then .ok (.uint n) else .error (.engine .dataMismatch)
  | .ok _, _ => some (.error (.engine .dataMismatch))

theorem uint64?_of_fits {n : Int} (h : FitsUnsigned c.bits n) : Value.uint64? n = some (UInt64.ofNat n.toNat) :=
  if_pos ⟨h.1, h.2.trans_le (Int.ofNat_le.2 (shift_le c.bits_le))⟩

theorem int64?_of_fits {n : Int} (h : FitsSigned c.bits n) : Value.int64? n = some (Int64.ofInt n) := by
  have hle : ((1 <<< (c.bits - 1) : Nat) : Int) ≤ (1 <<< (64 - 1) : Nat) :=
    Int.ofNat_le.2 (shift_le (Nat.sub_le_sub_right c.bits_le 1))
  exact if_pos ⟨(neg_le_neg hle).trans h.1, h.2.trans_le hle⟩

/-- **Comparing with the limits checks the range.** -/
theorem encodeInteger_eq_byLimits (c : Column) (v : Value) : c.encodeInteger v = c.encodeByLimits v := by
  unfold encodeInteger encodeByLimits
  rw [← c.bits_eq_width]
  cases v.integer? with
  | none => rfl
  | some n =>
    have hunsigned : (n < 0 ∨ 2 ^ c.bits - 1 < n) ↔ ¬FitsUnsigned c.bits n := by
      rw [fitsUnsigned_iff]
      omega
    have hsigned : (n < -2 ^ (c.bits - 1) ∨ 2 ^ (c.bits - 1) ≤ n) ↔ ¬FitsSigned c.bits n := by
      rw [fitsSigned_iff]
      omega
    simp only [hunsigned, hsigned, ite_not]
    split
    · split
      · rename_i h
        rw [uint64?_of_fits h]
        rfl
      · rfl
    · split
      · rename_i h
        rw [int64?_of_fits h]
        rfl
      · rfl

theorem decode_of_isInteger (hinteger : c.type.isInteger = true) (tuple : Tuple) :
    c.decode tuple = tuple.readInt c.ordinal c.length (!c.isUnsigned) := by
  obtain ⟨hstring, hbytes, -⟩ := kinds_of_isInteger hinteger
  unfold decode
  rw [hbytes, if_neg Bool.false_ne_true, hstring, if_neg Bool.false_ne_true, if_pos hinteger]

/-- **Shifting the width out checks the range**, and every shift is by less than the bits of a word. -/
theorem decodeByShifts?_eq (hinteger : c.type.isInteger = true) (tuple : Tuple) :
    c.decodeByShifts? tuple = some (c.decode tuple) := by
  rw [decode_of_isInteger hinteger]
  unfold decodeByShifts? Tuple.readInt
  rw [← c.bits_eq_width]
  cases tuple.slot c.ordinal with
  | error e => rfl
  | ok cell =>
    cases hsign : c.isUnsigned <;> cases cell <;> try rfl
    case false.int n =>
      show (signedFits? c.bits n).map _ =
        some (if FitsSigned c.bits n.toInt then Except.ok (Value.int n) else _)
      rw [signedFits?_eq (one_le_bits c) c.bits_le, Option.map_some]
      by_cases h : FitsSigned c.bits n.toInt
      · rw [if_pos h, decide_eq_true h, if_pos rfl]
      · rw [if_neg h, decide_eq_false h, if_neg Bool.false_ne_true]
    case true.uint n =>
      show (unsignedFits? c.bits n).map _ =
        some (if FitsUnsigned c.bits n.toNat then Except.ok (Value.uint n) else _)
      rw [unsignedFits?_eq c.bits_le, Option.map_some]
      by_cases h : FitsUnsigned c.bits n.toNat
      · rw [if_pos h, decide_eq_true h, if_pos rfl]
      · rw [if_neg h, decide_eq_false h, if_neg Bool.false_ne_true]

/-! ## Encoding and decoding have one range -/

theorem encode_of_inRange (hinteger : c.type.isInteger = true) (h : c.InRange cell) :
    c.encode cell.value = .ok cell := by
  cases cell with
  | int n =>
    have hview : (Cell.int n).value.integer? = some n.toInt := rfl
    rw [encode_of_isInteger hinteger rfl]
    unfold encodeInteger
    rw [hview, h.1]
    exact (if_pos ((mem_range_of_signed h.1).1 h.2)).trans (by rw [Int64.ofInt_toInt])
  | uint n =>
    have hview : (Cell.uint n).value.integer? = some (n.toNat : Int) := rfl
    rw [encode_of_isInteger hinteger rfl]
    unfold encodeInteger
    rw [hview, h.1]
    exact (if_pos ((mem_range_of_unsigned h.1).1 h.2)).trans (by rw [Int.toNat_natCast, UInt64.ofNat_toNat])
  | null => exact h.elim
  | double x => exact h.elim
  | decimal x => exact h.elim
  | text s => exact h.elim
  | bytes b => exact h.elim

theorem encodes_iff_inRange (hinteger : c.type.isInteger = true) (hcell : cell ≠ .null) :
    (∃ v, c.encode v = .ok cell) ↔ c.InRange cell := by
  constructor
  · rintro ⟨v, hencode⟩
    exact (inRange_iff_stores hinteger hcell).2 (encodes_of_encode (.inl hinteger) hencode).stores
  · intro h
    exact ⟨cell.value, encode_of_inRange hinteger h⟩

theorem inRange_of_decode (hinteger : c.type.isInteger = true) (hcell : cell ≠ .null) {tuple : Tuple}
    (hslot : tuple.slot c.ordinal = .ok cell) (h : c.decode tuple = .ok v) : c.InRange cell := by
  rw [decode_of_isInteger hinteger] at h
  unfold Tuple.readInt at h
  rw [hslot] at h
  cases cell with
  | null => exact absurd rfl hcell
  | int n =>
    cases hsign : c.isUnsigned with
    | true =>
      rw [hsign] at h
      cases h
    | false =>
      rw [hsign] at h
      change (if FitsSigned c.bits n.toInt then _ else _) = _ at h
      split at h
      · rename_i hfits
        exact ⟨hsign, (mem_range_of_signed hsign).2 hfits⟩
      · cases h
  | uint n =>
    cases hsign : c.isUnsigned with
    | false =>
      rw [hsign] at h
      cases h
    | true =>
      rw [hsign] at h
      change (if FitsUnsigned c.bits n.toNat then _ else _) = _ at h
      split at h
      · rename_i hfits
        exact ⟨hsign, (mem_range_of_unsigned hsign).2 hfits⟩
      · cases h
  | double x => cases h
  | decimal x => cases h
  | text s => cases h
  | bytes b => cases h

theorem decode_of_inRange (hinteger : c.type.isInteger = true) (hcell : cell ≠ .null) {tuple : Tuple}
    (hlive : tuple.disposed = false) (hslot : tuple.cells[c.ordinal]? = some cell) (h : c.InRange cell) :
    c.decode tuple = .ok cell.value :=
  decode_of_stores (.inl hinteger) hlive hslot ((inRange_iff_stores hinteger hcell).1 h)

theorem encodable_iff (hinteger : c.type.isInteger = true) (hnull : v ≠ .null) :
    (∃ cell, c.encode v = .ok cell) ↔ ∃ n, v.integer? = some n ∧ n ∈ c.range := by
  have hisNull : v.isNull = false := eq_false_of_ne_true fun h => hnull (Value.eq_null_iff.2 h)
  constructor
  · rintro ⟨cell, hencode⟩
    obtain ⟨n, -, hview, hholds⟩ := integer_of_encode hinteger hisNull hencode
    exact ⟨n, hview, mem_range_iff.2 hholds⟩
  · rintro ⟨n, hview, hrange⟩
    obtain ⟨cell, hencode, -⟩ := (encode_integer_iff hinteger hisNull).2 ⟨hview, mem_range_iff.1 hrange⟩
    exact ⟨cell, hencode⟩

end Column

/-- **The encoder and the decoder of an integer column have one range.**  Of the cells that are not null, a column can read
just those that some value is encoded as, and these are the words of its sign that hold an integer in its range; what has
been read is encoded as the same cell again.  A value that is not null is encoded just if it is an integer in that range.
It does not matter that the one side compares integers with limits and the other shifts words, and no shift is by all the
bits of a word.  The range is that of one to eight bytes whatever length is declared. -/
theorem integer_range_of_cells (c : Column) (hinteger : c.type.isInteger = true) :
    (∀ (cell : Cell) (tuple : Tuple), cell ≠ .null → tuple.disposed = false → tuple.cells[c.ordinal]? = some cell →
        ((∃ v, c.decode tuple = .ok v) ↔ ∃ v, c.encode v = .ok cell) ∧
        ((∃ v, c.encode v = .ok cell) ↔ c.InRange cell) ∧
        ∀ v, c.decode tuple = .ok v → c.encode v = .ok cell) ∧
      (∀ v : Value, v ≠ .null → ((∃ cell, c.encode v = .ok cell) ↔ ∃ n, v.integer? = some n ∧ n ∈ c.range)) ∧
      (∀ v : Value, v ≠ .null → c.encode v = c.encodeByLimits v) ∧
      ∀ tuple, c.decodeByShifts? tuple = some (c.decode tuple) := by
  refine ⟨fun cell tuple hcell hlive hslot => ?_, fun v => Column.encodable_iff hinteger, fun v hnull => ?_,
    Column.decodeByShifts?_eq hinteger⟩
  · have hencodes := Column.encodes_iff_inRange hinteger hcell
    have hread : ∀ {v}, c.decode tuple = .ok v → c.InRange cell :=
      Column.inRange_of_decode hinteger hcell (Column.slot_of_live hlive hslot)
    refine ⟨?_, hencodes, fun v hdecode => ?_⟩
    · rw [hencodes]
      exact ⟨fun ⟨v, hdecode⟩ => hread hdecode,
        fun h => ⟨cell.value, Column.decode_of_inRange hinteger hcell hlive hslot h⟩⟩
    · have hrange := hread hdecode
      rw [Column.decode_of_inRange hinteger hcell hlive hslot hrange] at hdecode
      cases hdecode
      exact Column.encode_of_inRange hinteger hrange
  · have hisNull : v.isNull = false := eq_false_of_ne_true fun h => hnull (Value.eq_null_iff.2 h)
    rw [Column.encode_of_isInteger hinteger hisNull, Column.encodeInteger_eq_byLimits]

/-! ## The ends of the range -/

def sized (length : Nat) (attributes : List Attribute) : Column := ⟨"n", .int, length, attributes, 0⟩

def Column.CanRead (c : Column) (cell : Cell) : Prop := ∃ v, c.decode ⟨.clustered, [c], [cell], false⟩ = .ok v

def Column.CanEncode (c : Column) (n : Int) : Prop := ∃ cell, c.encode (.bigInt n) = .ok cell

/-- The ends at declared lengths of zero, three, eight and eleven bytes, and of unsigned columns of no and of eight bytes.
What is just outside cannot be read or, where no word holds it, not be encoded. -/
theorem integer_range_of_cells_sized :
    ((sized 0 []).CanRead (.int (-128)) ∧ ¬(sized 0 []).CanRead (.int (-129)) ∧ ¬(sized 0 []).CanRead (.int 128)) ∧
      ((sized 3 []).CanRead (.int (-8388608)) ∧ ¬(sized 3 []).CanRead (.int (-8388609)) ∧
        ¬(sized 3 []).CanRead (.int 8388608)) ∧
      ((sized 8 []).CanRead (.int (-9223372036854775808)) ∧ ¬(sized 8 []).CanEncode (-9223372036854775809) ∧
        ¬(sized 8 []).CanEncode 9223372036854775808) ∧
      ((sized 11 []).CanRead (.int (-9223372036854775808)) ∧ ¬(sized 11 []).CanEncode (-9223372036854775809) ∧
        ¬(sized 11 []).CanEncode 9223372036854775808) ∧
      ((sized 0 [.unsigned]).CanRead (.uint 255) ∧ ¬(sized 0 [.unsigned]).CanRead (.uint 256)) ∧
      ((sized 8 [.unsigned]).CanRead (.uint 18446744073709551615) ∧
        ¬(sized 8 [.unsigned]).CanEncode 18446744073709551616 ∧ ¬(sized 8 [.unsigned]).CanEncode (-1)) := by
  have hread : ∀ (length : Nat) (attributes : List Attribute) (cell : Cell), cell ≠ .null →
      ((sized length attributes).CanRead cell ↔ (sized length attributes).InRange cell) := by
    intro length attributes cell hcell
    obtain ⟨hread, hrange, -⟩ := (integer_range_of_cells (sized length attributes) rfl).1 cell
      ⟨.clustered, [sized length attributes], [cell], false⟩ hcell rfl rfl
    exact hread.trans hrange
  have hencode : ∀ (length : Nat) (attributes : List Attribute) (n : Int),
      (sized length attributes).CanEncode n ↔ n ∈ (sized length attributes).range := by
    intro length attributes n
    refine ((integer_range_of_cells (sized length attributes) rfl).2.1 (.bigInt n) (by simp)).trans ?_
    exact ⟨fun ⟨m, hview, hm⟩ => Option.some_inj.1 hview ▸ hm, fun hn => ⟨n, rfl, hn⟩⟩
  have hreadSigned : ∀ (length : Nat) (n : Int64), (sized length []).CanRead (.int n) ↔
      -2 ^ (8 * max 1 (min length 8) - 1) ≤ n.toInt ∧ n.toInt < 2 ^ (8 * max 1 (min length 8) - 1) :=
    fun length n => (hread length [] (.int n) (by simp)).trans (and_iff_right rfl)
  have hreadUnsigned : ∀ (length : Nat) (n : UInt64), (sized length [.unsigned]).CanRead (.uint n) ↔
      (0 : Int) ≤ n.toNat ∧ (n.toNat : Int) < 2 ^ (8 * max 1 (min length 8)) :=
    fun length n => (hread length [.unsigned] (.uint n) (by simp)).trans (and_iff_right rfl)
  have hencodeSigned : ∀ (length : Nat) (n : Int), (sized length []).CanEncode n ↔
      -2 ^ (8 * max 1 (min length 8) - 1) ≤ n ∧ n < 2 ^ (8 * max 1 (min length 8) - 1) :=
    fun length n => hencode length [] n
  have hencodeUnsigned : ∀ (length : Nat) (n : Int), (sized length [.unsigned]).CanEncode n ↔
      0 ≤ n ∧ n < 2 ^ (8 * max 1 (min length 8)) :=
    fun length n => hencode length [.unsigned] n
  simp only [hreadSigned, hreadUnsigned, hencodeSigned, hencodeUnsigned]
  decide

end RowStore

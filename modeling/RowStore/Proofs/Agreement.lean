import RowStore.Proofs.CellOrder
import RowStore.Proofs.LeadingCells
import RowStore.Proofs.Results
import RowStore.Proofs.StoredCells

/-!
# Agreement is equality of keys

A column encodes a value through its view in the column's type, and values agree in a column if they have the same view.
So two rows agree on some columns exactly if their encodings are one key (`agreement_is_key_equality`).  Agreement is
symmetric and transitive in every type; a value without a view agrees with nothing, not even with itself.
-/
namespace RowStore

open Std (TransCmp OrientedCmp)

/-- A comparison by which things without a view may differ from themselves. -/
structure IsAgreement {α : Type} (same : α → α → Bool) : Prop where
  symm : ∀ {a b}, same a b = true → same b a = true
  trans : ∀ {a b c}, same a b = true → same b c = true → same a c = true

namespace IsAgreement

variable {α β : Type} {same : α → α → Bool}

theorem beq [BEq α] [LawfulBEq α] : IsAgreement fun a b : α => a == b where
  symm h := by
    rw [beq_iff_eq] at *
    exact h.symm
  trans h h' := by
    rw [beq_iff_eq] at *
    exact h.trans h'

theorem of_cmp (cmp : α → α → Ordering) [TransCmp cmp] : IsAgreement fun a b => cmp a b == .eq where
  symm h := by
    rw [beq_iff_eq] at *
    exact OrientedCmp.eq_symm h
  trans h h' := by
    rw [beq_iff_eq] at *
    exact TransCmp.eq_trans h h'

theorem bothSame (h : IsAgreement same) : IsAgreement (bothSame same) where
  symm := by
    intro a b hab
    cases a <;> cases b <;> simp only [RowStore.bothSame, Bool.false_eq_true] at *
    exact h.symm hab
  trans := by
    intro a b c hab hbc
    cases a <;> cases b <;> cases c <;> simp only [RowStore.bothSame, Bool.false_eq_true] at *
    exact h.trans hab hbc

theorem comap (h : IsAgreement same) (view : β → α) : IsAgreement fun a b => same (view a) (view b) :=
  ⟨h.symm, h.trans⟩

/-- Nulls agree with each other, and with nothing else. -/
theorem orNull {f : Value → Value → Bool} (h : IsAgreement f) :
    IsAgreement fun a b => if a.isNull || b.isNull then a.isNull && b.isNull else f a b where
  symm := by
    intro a b hab
    cases ha : a.isNull <;> cases hb : b.isNull <;> simp [ha, hb] at *
    exact h.symm hab
  trans := by
    intro a b c hab hbc
    cases ha : a.isNull <;> cases hb : b.isNull <;> cases hc : c.isNull <;> simp [ha, hb, hc] at *
    exact h.trans hab hbc

theorem sameNumber : IsAgreement Binary64.sameNumber where
  symm := by
    intro x y h
    simp only [Binary64.sameNumber, Bool.and_eq_true, Bool.or_eq_true, beq_iff_eq] at *
    obtain ⟨⟨hx, hy⟩, hbits | ⟨hzero, hzero'⟩⟩ := h
    · exact ⟨⟨hy, hx⟩, .inl hbits.symm⟩
    · exact ⟨⟨hy, hx⟩, .inr ⟨hzero', hzero⟩⟩
  trans := by
    rintro ⟨x⟩ ⟨y⟩ ⟨z⟩ h h'
    simp only [Binary64.sameNumber, Bool.and_eq_true, Bool.or_eq_true, beq_iff_eq] at *
    obtain ⟨⟨hx, hy⟩, rfl | ⟨hzero, hzero'⟩⟩ := h
    · exact h'
    obtain ⟨⟨-, hz⟩, rfl | ⟨-, hzero''⟩⟩ := h'
    · exact ⟨⟨hx, hz⟩, .inr ⟨hzero, hzero'⟩⟩
    · exact ⟨⟨hx, hz⟩, .inr ⟨hzero, hzero''⟩⟩

/-- Values of one form are compared as that form is, values of different forms differ. -/
theorem ofForm : IsAgreement Value.same where
  symm := by
    intro a b hab
    cases a <;> cases b <;> first | exact hab | cases hab | skip
    case int.int => exact beq.symm hab
    case uint.uint => exact beq.symm hab
    case bigInt.bigInt => exact beq.symm hab
    case float.float => exact sameNumber.symm hab
    case decimal.decimal => exact (of_cmp Decimal.compareNumber).symm hab
    case text.text => exact beq.symm hab
    case bytes.bytes => exact beq.symm hab
  trans := by
    intro a b c hab hbc
    cases a <;> cases b <;> first | exact hbc | cases hab | skip
    all_goals cases c <;> first | cases hbc | skip
    case int.int.int => exact beq.trans hab hbc
    case uint.uint.uint => exact beq.trans hab hbc
    case bigInt.bigInt.bigInt => exact beq.trans hab hbc
    case float.float.float => exact sameNumber.trans hab hbc
    case decimal.decimal.decimal => exact (of_cmp Decimal.compareNumber).trans hab hbc
    case text.text.text => exact beq.trans hab hbc
    case bytes.bytes.bytes => exact beq.trans hab hbc

end IsAgreement

/-- **Agreement is symmetric and transitive in every type.** -/
theorem ColumnType.isAgreement_agree (type : ColumnType) : IsAgreement type.agree := by
  refine IsAgreement.orNull (f := fun a b => if type.isInteger then _ else _) ?_
  by_cases hinteger : type.isInteger = true
  · simp only [hinteger, if_true]
    exact IsAgreement.beq.bothSame.comap _
  by_cases hdecimal : type.isDecimalFamily = true
  · simp only [hinteger, hdecimal, if_true]
    exact (IsAgreement.of_cmp Decimal.compareNumber).bothSame.comap _
  by_cases hstring : type.isString = true
  · simp only [hinteger, hdecimal, hstring, if_true]
    exact IsAgreement.beq.bothSame.comap _
  by_cases hbytes : type.isByteArray = true
  · simp only [hinteger, hdecimal, hstring, hbytes, if_true]
    exact IsAgreement.beq.bothSame.comap _
  · simp only [hinteger, hdecimal, hstring, hbytes]
    exact IsAgreement.ofForm

namespace Column

variable {c : Column} {v w : Value} {a b : Cell}

/-- A column of integers, texts, byte arrays or decimals: the kinds that keys are made of. -/
def IsKeyed (c : Column) : Prop := c.IsBasic ∨ c.type = .decimal

instance (c : Column) : Decidable c.IsKeyed := inferInstanceAs (Decidable (_ ∨ _))

/-- A value agrees with the same values as its own encoding. -/
theorem Encodes.agree_value (h : c.Encodes v a) (w : Value) : c.type.agree a.value w = c.type.agree v w := by
  have hsame : a.value.isNull = v.isNull := (Cell.isNull_value a).trans h.isNull_eq
  unfold ColumnType.agree
  rw [hsame]
  cases h with
  | null hnull => simp only [hnull, Bool.true_or, if_true]
  | int n _ htype _ hview =>
    have hcell : (Cell.int n).value.integer? = some n.toInt := rfl
    simp only [htype, if_true, hview, hcell]
  | uint n _ htype _ hview =>
    have hcell : (Cell.uint n).value.integer? = some (n.toNat : Int) := rfl
    simp only [htype, if_true, hview, hcell]
  | text s _ htype hview =>
    obtain ⟨hinteger, -, hdecimal⟩ := kinds_of_isString htype
    have hcell : (Cell.text s).value.text? = some s := rfl
    simp only [hinteger, hdecimal, htype, Bool.false_eq_true, if_true, if_false, hview, hcell]
  | bytes b _ htype hview =>
    obtain ⟨hinteger, hstring, hdecimal⟩ := kinds_of_isByteArray htype
    have hcell : (Cell.bytes b).value.bytes? = some b := rfl
    simp only [hinteger, hstring, hdecimal, htype, Bool.false_eq_true, if_true, if_false, hview, hcell]

theorem same_iff_eq_of_stores (ha : c.Stores a) (hb : c.Stores b) : a.same b = true ↔ a = b := by
  unfold Cell.same
  rw [beq_iff_eq]
  refine ⟨eq_of_order ha hb, fun h => ?_⟩
  rw [h]
  exact Std.ReflCmp.compare_self

theorem agree_iff_same_of_basic (hbasic : c.IsBasic) (hv : c.encode v = .ok a) (hw : c.encode w = .ok b) :
    c.type.agree v w = true ↔ a.same b = true := by
  have ha := encodes_of_encode hbasic hv
  have hb := encodes_of_encode hbasic hw
  have hsymm : ∀ x y, c.type.agree x y = true ↔ c.type.agree y x = true := fun x y =>
    ⟨c.type.isAgreement_agree.symm, c.type.isAgreement_agree.symm⟩
  calc c.type.agree v w = true ↔ c.type.agree w v = true := hsymm v w
    _ ↔ c.type.agree b.value v = true := by rw [hb.agree_value]
    _ ↔ c.type.agree v b.value = true := hsymm b.value v
    _ ↔ a = b := ha.agree_iff hb.stores
    _ ↔ a.same b = true := (same_iff_eq_of_stores ha.stores hb.stores).symm

theorem encode_decimal (h : c.type = .decimal) (hv : c.encode v = .ok a) :
    v.isNull = true ∧ a = .null ∨ ∃ x, v.isNull = false ∧ v.decimal? = some x ∧ a = .decimal x := by
  unfold encode at hv
  simp only [h, ColumnType.isInteger, ColumnType.isString, ColumnType.isByteArray, Bool.false_eq_true, if_false] at hv
  cases hnull : v.isNull with
  | true =>
    rw [hnull] at hv
    cases hv
    exact .inl ⟨rfl, rfl⟩
  | false =>
    cases hview : v.decimal? with
    | none =>
      rw [hnull, hview] at hv
      cases hv
    | some x =>
      rw [hnull, hview] at hv
      cases hv
      exact .inr ⟨x, rfl, rfl, rfl⟩

/-- Decimals agree as numbers, whatever their scales. -/
theorem agree_iff_same_of_decimal (h : c.type = .decimal) (hv : c.encode v = .ok a) (hw : c.encode w = .ok b) :
    c.type.agree v w = true ↔ a.same b = true := by
  unfold ColumnType.agree
  rw [h]
  rcases encode_decimal h hv with ⟨hnull, rfl⟩ | ⟨x, hnull, hx, rfl⟩ <;>
    rcases encode_decimal h hw with ⟨hnull', rfl⟩ | ⟨y, hnull', hy, rfl⟩
  · simp [hnull, hnull', Cell.same, Cell.order]
  · simp [hnull, hnull', Cell.same, Cell.order, Cell.kind]
  · simp [hnull, hnull', Cell.same, Cell.order, Cell.kind]
  · simp [hnull, hnull', hx, hy, bothSame, ColumnType.isInteger, ColumnType.isDecimalFamily, Cell.same, Cell.order,
      Decimal.sameNumber]

/-- **Values agree in a column exactly if their encodings are equal as keys.** -/
theorem agree_iff_same (hkeyed : c.IsKeyed) (hv : c.encode v = .ok a) (hw : c.encode w = .ok b) :
    c.type.agree v w = true ↔ a.same b = true :=
  hkeyed.elim (fun h => agree_iff_same_of_basic h hv hw) fun h => agree_iff_same_of_decimal h hv hw

end Column

theorem Key.order_eq_iff_forall₂ : ∀ {x y : Key}, Key.order x y = .eq ↔ List.Forall₂ (fun a b => a.same b = true) x y
  | [], [] => ⟨fun _ => .nil, fun _ => rfl⟩
  | [], _ :: _ => ⟨fun h => (by cases h), fun h => by cases h⟩
  | _ :: _, [] => ⟨fun h => (by cases h), fun h => by cases h⟩
  | a :: x, b :: y => by
    rw [Key.order_cons_cons, List.forall₂_cons, ← Key.order_eq_iff_forall₂, Cell.same, beq_iff_eq]
    cases a.order b <;> simp

theorem agreeOn_iff_forall₂ {x y : Row} : ∀ {columns : List Column} {kx ky : Key}, (∀ c ∈ columns, c.IsKeyed) →
    List.Forall₂ (fun c cell => c.encode (x.value c.name) = .ok cell) columns kx →
    List.Forall₂ (fun c cell => c.encode (y.value c.name) = .ok cell) columns ky →
    (Row.agreeOn columns x y = true ↔ List.Forall₂ (fun a b => a.same b = true) kx ky)
  | [], _, _, _, .nil, .nil => by simp [Row.agreeOn]
  | c :: columns, _, _, hkeyed, .cons hx hxs, .cons hy hys => by
    have hrest := agreeOn_iff_forall₂ (fun d hd => hkeyed d (List.mem_cons_of_mem _ hd)) hxs hys
    have hfirst := Column.agree_iff_same (hkeyed c List.mem_cons_self) hx hy
    unfold Row.agreeOn at *
    rw [List.all_cons, Bool.and_eq_true, hfirst, hrest, List.forall₂_cons]

/-- **Two rows agree on some columns exactly if their encodings are the same key**, cell by cell and in the order of an
index.  In every type agreement is symmetric and transitive, and null agrees with null alone. -/
theorem agreement_is_key_equality {columns : List Column} {x y : Row} {kx ky : Key}
    (hkeyed : ∀ c ∈ columns, c.IsKeyed) (hx : encodeColumns columns x = .ok kx)
    (hy : encodeColumns columns y = .ok ky) :
    (Row.agreeOn columns x y = true ↔ List.Forall₂ (fun a b => a.same b = true) kx ky) ∧
      (Row.agreeOn columns x y = true ↔ Key.order kx ky = .eq) ∧
      ∀ type : ColumnType, (∀ u v, type.agree u v = true → type.agree v u = true) ∧
        (∀ u v w, type.agree u v = true → type.agree v w = true → type.agree u w = true) ∧
        ∀ v, type.agree .null v = true ↔ v = .null := by
  have hcells := agreeOn_iff_forall₂ hkeyed (mapM_ok_iff.1 hx) (mapM_ok_iff.1 hy)
  refine ⟨hcells, hcells.trans Key.order_eq_iff_forall₂.symm, fun type => ⟨fun _ _ => type.isAgreement_agree.symm,
    fun _ _ _ => type.isAgreement_agree.trans, fun v => ?_⟩⟩
  cases v <;> simp [ColumnType.agree, Value.isNull]

/-- The columns of a price list: a number, a name, a mark and a price. -/
def priceColumns : List Column :=
  [⟨"id", .int, 8, [.notNull, .unsigned], 0⟩, ⟨"name", .varchar, 20, [], 1⟩, ⟨"mark", .varbinary, 8, [], 2⟩,
    ⟨"price", .decimal, 0, [], 3⟩]

/-- One and a half, with two places and with one. -/
def oneAndAHalf (places : Fin 2) : Decimal :=
  if places = 0 then ⟨false, 150, 2, by decide, by decide⟩ else ⟨false, 15, 1, by decide, by decide⟩

/-- Numbers in text, names in bytes and prices of different scales are the same key. -/
theorem agreement_of_prices :
    encodeColumns priceColumns (.ofList [("price", .text "1.50"), ("id", .text " 12 "), ("name", .text "x")]) =
        .ok [.uint 12, .text "x", .null, .decimal (oneAndAHalf 0)] ∧
      encodeColumns priceColumns
          (.ofList [("name", .bytes [120]), ("id", .bigInt 12), ("price", .decimal (oneAndAHalf 1))]) =
        .ok [.uint 12, .text "x", .null, .decimal (oneAndAHalf 1)] ∧
      Row.agreeOn priceColumns (.ofList [("price", .text "1.50"), ("id", .text " 12 "), ("name", .text "x")])
        (.ofList [("name", .bytes [120]), ("id", .bigInt 12), ("price", .decimal (oneAndAHalf 1))]) = true := by
  have hx : encodeColumns priceColumns (.ofList [("price", .text "1.50"), ("id", .text " 12 "), ("name", .text "x")]) =
      .ok [.uint 12, .text "x", .null, .decimal (oneAndAHalf 0)] := by cbv
  have hy : encodeColumns priceColumns
      (.ofList [("name", .bytes [120]), ("id", .bigInt 12), ("price", .decimal (oneAndAHalf 1))]) =
        .ok [.uint 12, .text "x", .null, .decimal (oneAndAHalf 1)] := by cbv
  exact ⟨hx, hy, (agreement_is_key_equality (by decide) hx hy).2.1.2 (by decide)⟩

end RowStore

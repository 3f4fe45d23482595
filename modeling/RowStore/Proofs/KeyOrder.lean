import RowStore.Proofs.Agreement
import RowStore.Proofs.CellPlaces
import RowStore.Proofs.PrefixSearch

/-!
# Keys in order

The laws of an order (`IsOrder`) hold for cells and for keys alike.  Keys compare as much of each other as both have,
and then by length (`Key.order_eq_orderLeading_then`), so a key stands right before all that goes on from it and behind
all that begins before it.  That is why a key parts the entries of an index, however wide they are, into three stretches
that a search can tell apart (`OrderedMap.parted`).
-/
namespace RowStore

open Std (TransCmp OrientedCmp)

/-- A total order, and the equality that goes with it. -/
structure IsOrder {α : Type} (order : α → α → Ordering) (same : α → α → Prop) : Prop where
  refl : ∀ a, order a a = .eq
  swap : ∀ a b, order a b = (order b a).swap
  trans : ∀ a b c, (order a b).isLE → (order b c).isLE → (order a c).isLE
  trans_lt : ∀ a b c, order a b = .lt → order b c = .lt → order a c = .lt
  total : ∀ a b, (order a b).isLE ∨ (order b a).isLE
  same_iff : ∀ a b, same a b ↔ order a b = .eq
  equivalence : Equivalence same

theorem IsOrder.of_transCmp {α : Type} {order : α → α → Ordering} [TransCmp order] {same : α → α → Prop}
    (h : ∀ a b, same a b ↔ order a b = .eq) : IsOrder order same where
  refl _ := Std.ReflCmp.compare_self
  swap _ _ := OrientedCmp.eq_swap
  trans _ _ _ := TransCmp.isLE_trans
  trans_lt _ _ _ := TransCmp.lt_trans
  total a b := by
    have hswap : order b a = (order a b).swap := OrientedCmp.eq_swap
    rw [hswap]
    cases order a b <;> simp
  same_iff := h
  equivalence :=
    ⟨fun a => (h a a).2 Std.ReflCmp.compare_self, fun hab => (h _ _).2 (OrientedCmp.eq_symm ((h _ _).1 hab)),
      fun hab hbc => (h _ _).2 (TransCmp.eq_trans ((h _ _).1 hab) ((h _ _).1 hbc))⟩

namespace Key

/-- One key stands before another: it ends first, or at the first cells that differ it has the one that is before. -/
inductive Before : Key → Key → Prop
  | ends {b : Cell} {y : Key} : Before [] (b :: y)
  | differs {a b : Cell} {x y : Key} (h : a.Before b) : Before (a :: x) (b :: y)
  | goesOn {a b : Cell} {x y : Key} (hsame : a.same b = true) (h : Before x y) : Before (a :: x) (b :: y)

/-- **Keys are ordered lexicographically.** -/
theorem order_eq_lt_iff_before : ∀ {x y : Key}, Key.order x y = .lt ↔ Before x y
  | [], [] => ⟨fun h => (by cases h), fun h => (by cases h)⟩
  | [], _ :: _ => ⟨fun _ => .ends, fun _ => rfl⟩
  | _ :: _, [] => ⟨fun h => (by cases h), fun h => (by cases h)⟩
  | a :: x, b :: y => by
    have hsame : a.same b = true ↔ a.order b = .eq := beq_iff_eq
    rw [order_cons_cons, Ordering.then_eq_lt, Cell.order_eq_lt_iff, ← hsame, order_eq_lt_iff_before]
    constructor
    · rintro (h | ⟨hsame, h⟩)
      · exact .differs h
      · exact .goesOn hsame h
    · intro h
      cases h with
      | differs h => exact .inl h
      | goesOn hsame h => exact .inr ⟨hsame, h⟩

instance : DecidableRel Before := fun _ _ => decidable_of_iff _ order_eq_lt_iff_before

/-- **Keys compare as much of each other as both have, then by length.** -/
theorem order_eq_orderLeading_then : ∀ x y : Key,
    Key.order x y = (orderLeading x y).then (compare x.length y.length)
  | [], [] => rfl
  | [], _ :: _ => rfl
  | _ :: _, [] => rfl
  | a :: x, b :: y => by
    have hleading : orderLeading (a :: x) (b :: y) = (a.order b).then (orderLeading x y) := order_cons_cons a b _ _
    have hlength : compare (a :: x).length (b :: y).length = compare x.length y.length := by
      simp only [List.length_cons, Nat.compare_eq_ite_lt, Nat.add_lt_add_iff_right]
    rw [order_cons_cons, order_eq_orderLeading_then x y, hleading, hlength, Ordering.then_assoc]

/-- **What goes on from a key stands behind it.** -/
theorem order_append_eq_lt {p q rest : Key} (h : Key.order p q = .eq) (hrest : rest ≠ []) :
    Key.order p (q ++ rest) = .lt := by
  have hlength : p.length = q.length := (order_eq_iff_forall₂.1 h).length_eq
  have happ : Key.order p (q ++ rest) = Key.order (p ++ []) (q ++ rest) := by rw [List.append_nil]
  rw [happ, order_append _ _ hlength, h]
  cases rest with
  | nil => exact absurd rfl hrest
  | cons b rest => rfl

/-- **The keys before a key are those that begin before it.** -/
theorem leading_eq_lt_iff {entry key : Key} : leading entry key = .lt ↔ Key.order entry key = .lt := by
  by_cases h : key.length ≤ entry.length
  · rw [order_eq_lt_iff h, orderLeading_eq h]
    rfl
  · unfold leading
    rw [List.take_of_length_le (by omega)]

end Key

/-! ## Stretches of an index -/

/-- Items whose keys never go back are parted by a key: those before it, those equal to it, those after it. -/
theorem filter_parts {α : Type} {f : α → Key} {l : List α}
    (hl : l.Pairwise fun a b => (Key.order (f a) (f b)).isLE) (key : Key) :
    l = (l.filter fun a => Key.order (f a) key == .lt) ++ (l.filter fun a => Key.order (f a) key != .lt) ∧
      (l.filter fun a => Key.order (f a) key != .lt) =
        (l.filter fun a => Key.order (f a) key == .eq) ++ l.filter fun a => Key.order (f a) key == .gt := by
  have hbefore : l.Pairwise fun a b => (Key.order (f b) key == .lt) = true → (Key.order (f a) key == .lt) = true :=
    hl.imp fun hab hb => by
      rw [beq_iff_eq] at *
      exact TransCmp.lt_of_isLE_of_lt hab hb
  have hequal : (l.filter fun a => Key.order (f a) key != .lt).Pairwise fun a b =>
      (Key.order (f b) key == .eq) = true → (Key.order (f a) key == .eq) = true := by
    refine List.Pairwise.imp_of_mem (fun {a b} ha _ hab hb => ?_) (hl.filter _)
    have hnot : Key.order (f a) key ≠ .lt := by simpa using (List.mem_filter.1 ha).2
    have hle : (Key.order (f a) key).isLE := TransCmp.isLE_trans hab (by rw [beq_iff_eq.1 hb]; rfl)
    cases hc : Key.order (f a) key with
    | lt => exact absurd hc hnot
    | eq => rfl
    | gt =>
      rw [hc] at hle
      cases hle
  refine ⟨(filter_append_filter_not hbefore).symm, ?_⟩
  rw [← filter_append_filter_not hequal, List.filter_filter, List.filter_filter]
  congr 1 <;> refine List.filter_congr fun a _ => ?_
  all_goals cases Key.order (f a) key <;> rfl

namespace OrderedMap

variable {β : Type} {m : OrderedMap Key β} {key : Key}

/-- The stretches into which a key parts the entries of an index: what begins before it, what begins with it, and what
begins after it. -/
structure Parted (m : OrderedMap Key β) (key : Key) : Prop where
  entries : m.entries = m.before key ++ m.atOrAfter key
  before : m.before key = m.entries.filter fun e => Key.leading e.1 key == .lt
  atOrAfter : m.atOrAfter key = (m.entries.filter fun e => Key.leading e.1 key == .eq) ++
    m.entries.filter fun e => Key.leading e.1 key == .gt
  after : m.atOrAfter key = (m.entries.filter fun e => Key.order e.1 key == .eq) ++ m.after key

/-- **A key parts the entries of an index**, whether or not it is one of them and however wide they are. -/
theorem parted (hm : m.Ascending) (key : Key) : m.Parted key := by
  have hle := isLE_of_ascending hm
  have hwhole := filter_parts (f := fun e : Key × β => e.1) (hle.imp fun hab => Ordering.isLE_iff_ne_gt.2 hab) key
  have hleading := filter_parts (f := fun e : Key × β => e.1.take key.length) (hle.imp leading_mono) key
  have hlt : ∀ e : Key × β, (Key.leading e.1 key == .lt) = (Key.order e.1 key == .lt) := fun e => by
    rw [Bool.eq_iff_iff, beq_iff_eq, beq_iff_eq, Key.leading_eq_lt_iff]
  refine ⟨hwhole.1, List.filter_congr fun e _ => (hlt e).symm, ?_, hwhole.2⟩
  calc m.atOrAfter key
      = m.entries.filter fun e => Key.leading e.1 key != .lt :=
        List.filter_congr fun e _ => congrArg (!·) (hlt e).symm
    _ = _ := hleading.2

end OrderedMap

/-- **Cells and keys are in order.**  Cells are compared by a total order, and equality is what it does not tell apart.
It goes by what cells hold: integers of sixty-four bits as integers, decimals as numbers, doubles by all of their bits.
Keys follow it lexicographically: what goes on from a key stands behind it, what begins before it stands before it, and
so a key parts every index. -/
theorem order_is_lawful :
    IsOrder Cell.order (fun a b => a.same b = true) ∧
    (∀ a b : Cell, a.order b = .lt ↔ a.Before b) ∧
    (∀ (a b : Cell) (m n : Int), a.integer? = some m → b.integer? = some n → a.order b = compare m n) ∧
    (∀ n : Int, (∃ a : Cell, a.integer? = some n) ↔ -2 ^ 63 ≤ n ∧ n < 2 ^ 64) ∧
    (∀ x y : Decimal, (Cell.decimal x).order (.decimal y) = compare x.toRat y.toRat) ∧
    (∀ x y : Binary64, (Cell.double x).order (.double y) = .eq ↔ x.bits = y.bits) ∧
    (∀ x y : Binary64, x.isFinite → y.isFinite → ((Cell.double x).order (.double y) = .lt ↔
      x.toRat < y.toRat ∨ (x.isZero ∧ y.isZero ∧ x.isNegative ∧ ¬y.isNegative))) ∧
    IsOrder Key.order (List.Forall₂ fun a b => a.same b = true) ∧
    (∀ x y : Key, Key.order x y = .lt ↔ Key.Before x y) ∧
    (∀ x y : Key, Key.order x y = (Key.orderLeading x y).then (compare x.length y.length)) ∧
    (∀ p q rest : Key, Key.order p q = .eq → rest ≠ [] → Key.order p (q ++ rest) = .lt) ∧
    (∀ p k : Key, Key.leading k p = .lt ↔ Key.order k p = .lt) ∧
    ∀ (β : Type) (m : OrderedMap Key β), m.Ascending → ∀ key, m.Parted key :=
  ⟨.of_transCmp fun _ _ => beq_iff_eq, fun _ _ => Cell.order_eq_lt_iff, fun _ _ _ _ => Cell.order_of_integer?,
    fun _ => Cell.exists_integer?_iff, Cell.order_decimal, fun _ _ => Cell.order_double_eq_eq,
    fun _ _ _ _ => Cell.order_double_eq_lt.trans Binary64.precedes_iff,
    .of_transCmp fun _ _ => Key.order_eq_iff_forall₂.symm, fun _ _ => Key.order_eq_lt_iff_before,
    Key.order_eq_orderLeading_then, fun _ _ _ => Key.order_append_eq_lt, fun _ _ => Key.leading_eq_lt_iff,
    fun _ _ => OrderedMap.parted⟩

/-- Six entries of one cell or two, of which three begin with `3`, signed or unsigned. -/
def threes : OrderedMap Key Nat :=
  ⟨[([.null], 0), ([.int (-1), .null], 1), ([.uint 3], 2), ([.int 3, .bytes [1]], 3), ([.uint 3, .bytes [2]], 4),
    ([.uint 18446744073709551615], 5)]⟩

theorem order_is_lawful_threes : threes.Ascending ∧ threes.Parted [.int 3] ∧
    (Cell.int (-1)).integer? = some (-1) ∧ (Cell.uint 18446744073709551615).integer? = some 18446744073709551615 ∧
    (Cell.int (-1)).order (.uint 18446744073709551615) = .lt ∧
    Key.order [.int 3] [.uint 3] = .eq ∧ Key.order [.int 3] ([.uint 3] ++ [.bytes [1]]) = .lt ∧
    (⟨0x8000000000000000⟩ : Binary64).isFinite ∧ (⟨0⟩ : Binary64).isFinite ∧
    (Cell.double ⟨0x8000000000000000⟩).order (.double ⟨0⟩) = .lt := by
  have hm : threes.Ascending := by unfold OrderedMap.Ascending; decide
  have hkeys : Key.order [.int 3] [.uint 3] = .eq := by decide
  obtain ⟨-, -, hintegers, -, -, -, hdoubles, -, -, -, hprefix, -, hparted⟩ := order_is_lawful
  exact ⟨hm, hparted Nat threes hm [.int 3], rfl, rfl, (hintegers _ _ _ _ rfl rfl).trans (by decide), hkeys,
    hprefix _ _ _ hkeys (by decide), by decide, by decide,
    (hdoubles _ _ (by decide) (by decide)).2 (.inr (by decide))⟩

end RowStore

import RowStore.Proofs.TableWork

/-!
# Which row is found

The search for a key has only the leading cells that are not null, and it stops at the first row that does not begin
before them.  Null stands before every other cell.  So if no cell that is null is followed by one that is not
(`NullsLast`), the rows that begin before the leading cells are those before the whole key (`order_append_null`), and the
search comes to the row of the key if there is one: then what is found is what the table has under the key
(`found_eq_get?`).
-/
namespace RowStore

open Memory (project Table)

/-- Where a row is null in some columns, it is null in those after it as well. -/
def NullsLast (columns : List Column) (row : Row) : Prop :=
  columns.Pairwise fun c d => (row.value c.name).isNull = true → (row.value d.name).isNull = true

instance (columns : List Column) (row : Row) : Decidable (NullsLast columns row) :=
  inferInstanceAs (Decidable (columns.Pairwise _))

/-! ## Nulls come first -/

theorem Cell.order_ne_lt_of_isNull {a b : Cell} (h : b.isNull = true) : a.order b ≠ .lt := by
  cases b with
  | null => cases a <;> exact fun hlt => by cases hlt
  | _ => cases h

namespace Key

theorem order_ne_lt_of_isNull : ∀ {x y : Key}, x.length = y.length → (∀ b ∈ y, b.isNull = true) → Key.order x y ≠ .lt
  | [], [], _, _ => fun h => by cases h
  | [], _ :: _, h, _ => by cases h
  | _ :: _, [], h, _ => by cases h
  | a :: x, b :: y, hlength, hnull => by
    rw [order_cons_cons]
    have hrest := order_ne_lt_of_isNull (Nat.succ.inj hlength) fun c hc => hnull c (List.mem_cons_of_mem _ hc)
    have hfirst : a.order b ≠ .lt := Cell.order_ne_lt_of_isNull (hnull b List.mem_cons_self)
    intro h
    rcases Ordering.then_eq_lt.1 h with hlt | ⟨-, hlt⟩
    · exact hfirst hlt
    · exact hrest hlt

/-- **What is before a key that ends in nulls begins before what the key begins with.** -/
theorem order_append_null {x leading nulls : Key} (hlength : x.length = (leading ++ nulls).length)
    (hnull : ∀ b ∈ nulls, b.isNull = true) :
    Key.order x (leading ++ nulls) = .lt ↔ Key.orderLeading x leading = .lt := by
  rw [List.length_append] at hlength
  have htake : (x.take leading.length).length = leading.length := by rw [List.length_take]; omega
  have hdrop : (x.drop leading.length).length = nulls.length := by rw [List.length_drop]; omega
  rw [orderLeading_eq (by omega)]
  have hsplit : Key.order x (leading ++ nulls) =
      (Key.order (x.take leading.length) leading).then (Key.order (x.drop leading.length) nulls) := by
    rw [← order_append _ _ htake, List.take_append_drop]
  rw [hsplit, Ordering.then_eq_lt]
  exact ⟨fun h => h.resolve_right fun hand => order_ne_lt_of_isNull hdrop hnull hand.2, Or.inl⟩

end Key

/-! ## The search comes to the row of the key -/

/-- The columns behind the leading ones are null, if nulls come last. -/
theorem NullsLast.isNull_dropWhile {row : Row} : ∀ {columns : List Column}, NullsLast columns row →
    ∀ c ∈ columns.dropWhile fun c => !(row.value c.name).isNull, (row.value c.name).isNull = true
  | [], _, c, hc => absurd hc List.not_mem_nil
  | d :: columns, h, c, hc => by
    obtain ⟨hd, hcolumns⟩ := List.pairwise_cons.1 h
    rw [List.dropWhile_cons] at hc
    cases hnull : (row.value d.name).isNull with
    | true =>
      rw [hnull] at hc
      rcases List.mem_cons.1 hc with rfl | hc
      · exact hnull
      · exact hd c hc hnull
    | false =>
      rw [hnull] at hc
      exact isNull_dropWhile hcolumns c hc

/-- Only what is before a key matters to a search for what is not. -/
theorem OrderedMap.seek_congr_key {β : Type} {m : OrderedMap Key β} {key key' : Key}
    (h : ∀ e ∈ m.entries, Key.order e.1 key = .lt ↔ Key.order e.1 key' = .lt) :
    m.seek key .greaterOrEqual = m.seek key' .greaterOrEqual := by
  have hafter : m.atOrAfter key = m.atOrAfter key' := List.filter_congr fun e he => by
    rw [Bool.eq_iff_iff, bne_iff_ne, bne_iff_ne]
    exact not_congr (h e he)
  unfold OrderedMap.seek
  rw [hafter]

namespace Memory.Table

variable {schema : TableSchema} {t : Table} {row : Row} {cells stored : List Cell}

/-- The search for the leading cells stops at the row of the whole key. -/
theorem seek_leading (hschema : schema.WellFormed) (hbasic : schema.IsBasic) (hrow : schema.encodeRow row = .ok cells)
    (ht : t.Populated schema) (hlast : NullsLast schema.primary.columns row)
    (hget : t.rows.get? (project schema.primary.columns cells) = some stored) :
    t.rows.seek (project (leadingColumns schema.primary.columns row) cells) .greaterOrEqual =
      some (project schema.primary.columns cells) := by
  have hencodes := encodes_of_encodeRow hbasic hrow
  have hsplit : project schema.primary.columns cells = project (leadingColumns schema.primary.columns row) cells ++
      project (schema.primary.columns.dropWhile fun c => !(row.value c.name).isNull) cells := by
    rw [← project_append, leadingColumns, List.takeWhile_append_dropWhile]
  have hnull : ∀ b ∈ project (schema.primary.columns.dropWhile fun c => !(row.value c.name).isNull) cells,
      b.isNull = true := by
    intro b hb
    obtain ⟨c, hc, rfl⟩ := List.mem_map.1 hb
    obtain ⟨cell, hcell, hencode⟩ := hschema.cell hencodes (hschema.primary c ((List.dropWhile_sublist _).subset hc))
    rw [hcell, Option.getD_some, hencode.isNull_eq]
    exact hlast.isNull_dropWhile c hc
  have hlong : ∀ e ∈ t.rows.entries, e.1.length = (project schema.primary.columns cells).length := fun e he => by
    rw [ht.keyed he, length_project, length_project]
  obtain ⟨k, hk, heq⟩ := OrderedMap.exists_mem_of_get? hget
  have hkey : k = project schema.primary.columns cells := ht.eq_of_compare hschema (stores_of_encodes hencodes) hk heq
  have hseek : t.rows.seek (project (leadingColumns schema.primary.columns row) cells) .greaterOrEqual =
      t.rows.seek (project schema.primary.columns cells) .greaterOrEqual := OrderedMap.seek_congr_key fun e he => ?_
  · rw [hseek, OrderedMap.seek_of_mem ht.ascending hk heq hlong, hkey]
  have hle : (project (leadingColumns schema.primary.columns row) cells).length ≤ e.1.length := by
    rw [hlong e he, hsplit, List.length_append]
    exact Nat.le_add_right _ _
  have hlength := hlong e he
  rw [hsplit] at hlength ⊢
  rw [Key.order_eq_lt_iff hle, Key.order_append_null hlength hnull]

/-- **What is found is what the table has under the key**, unless a null in the key of that row stands before what is not
null. -/
theorem found_eq_get? (hschema : schema.WellFormed) (hbasic : schema.IsBasic) (hrow : schema.encodeRow row = .ok cells)
    (ht : t.Populated schema) (hlast : ∀ stored, t.rows.get? (project schema.primary.columns cells) = some stored →
      NullsLast schema.primary.columns row) :
    t.found schema row = .ok (t.rows.get? (project schema.primary.columns cells)) := by
  have hagree : ∀ {r : Key × List Cell}, r ∈ t.rows.entries →
      (Row.agreeOn schema.primary.columns row (schema.rowOf r.2) = true ↔ project schema.primary.columns cells = r.1) := by
    intro r hr
    rw [ht.keyed hr]
    exact agreeOn_iff hschema (encodes_of_encodeRow hbasic hrow) (ht.stores r hr) hschema.primary
  unfold found
  rw [encodeLeading_eq hschema hrow hschema.primary]
  refine congrArg Except.ok ?_
  cases hget : t.rows.get? (project schema.primary.columns cells) with
  | none =>
    refine Option.filter_eq_none_iff.2 fun stored hstored hfound => ?_
    obtain ⟨k, hk, hstored⟩ := Option.bind_eq_some_iff.1 hstored
    obtain ⟨k', hk', -⟩ := OrderedMap.exists_mem_of_get? hstored
    rw [(hagree hk').1 hfound, OrderedMap.get?_of_mem ht.ascending hk' Std.ReflCmp.compare_self] at hget
    cases hget
  | some stored =>
    obtain ⟨k, hk, heq⟩ := OrderedMap.exists_mem_of_get? hget
    have hkey := ht.eq_of_compare hschema (stores_of_encodeRow hbasic hrow) hk heq
    rw [seek_leading hschema hbasic hrow ht (hlast stored hget) hget, Option.bind_some, hget, Option.filter_some,
      if_pos ((hagree hk).2 hkey.symm)]

end Memory.Table
end RowStore

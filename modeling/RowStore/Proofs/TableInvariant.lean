import RowStore.Proofs.IndexMaps

/-!
# The invariant of a table

In a consistent table (`Table.Consistent`) the rows are as the schema wants them, each under its own primary key; there is
one map for each secondary index, with the entries of exactly these rows; and no two rows share a key that is unique.
Adding a row that is not refused and taking a row out keep a table consistent (`Consistent.withRow`,
`Consistent.withoutRow`).  The rows determine everything else (`Consistent.ext`), so a row that is taken out and put back
leaves the table as it was (`Consistent.withRow_withoutRow`).
-/
namespace RowStore
namespace Memory

/-- A row with one cell for each column, none of them null where the column must not be. -/
def Fits (columns : List Column) (row : List Cell) : Prop :=
  List.Forall₂ (fun (c : Column) (cell : Cell) => c.isNotNull = true → cell.isNull = false) columns row

namespace Table

open Std (TransCmp OrientedCmp)

/-- What holds of a table at any time. -/
structure Consistent (t : Table) : Prop where
  ascending : t.rows.Ascending
  fits : ∀ r ∈ t.rows.entries, Fits t.schema.columns r.2
  keyed : ∀ r ∈ t.rows.entries, r.1 = project t.schema.primary.columns r.2
  /-- There is one map for each secondary index. -/
  names : t.indexes.keys = t.schema.secondary.map (·.name)
  /-- The entries of an index are those of the rows. -/
  indexed : ∀ index ∈ t.schema.secondary, ∃ entries, t.indexes.get? index.name = some entries ∧ entries.Ascending ∧
    ∀ e, e ∈ entries.entries ↔ ∃ r ∈ t.rows.entries, e = (project index.columns r.2 ++ r.1, r.1)
  /-- Rows with the same unique key, none of whose cells is null, are one row. -/
  unique : ∀ index ∈ t.schema.secondary, index.isUnique = true → ∀ r ∈ t.rows.entries, ∀ s ∈ t.rows.entries,
    (project index.columns r.2).any Cell.isNull = false →
      Key.order (project index.columns r.2) (project index.columns s.2) = .eq → r = s

variable {t : Table} {row : List Cell} {key : Key}

theorem fits_iff : t.fits row = true ↔ Fits t.schema.columns row := by
  unfold Table.fits Fits
  rw [Bool.and_eq_true, beq_iff_eq, List.all_eq_true, List.forall₂_iff_zip, eq_comm]
  refine and_congr_right fun _ => ⟨fun h c cell hmem hnn => ?_, fun h e hmem => ?_⟩
  · simpa [hnn] using h (c, cell) hmem
  · obtain ⟨c, cell⟩ := e
    have := h hmem
    cases hnn : c.isNotNull with
    | false => simp [hnn]
    | true => simp [this hnn]

/-! ## Entries of an index -/

/-- Entries of rows compare by the index's columns, then by the primary keys. -/
theorem order_entry (columns : List Column) (r s : List Cell) (k l : Key) :
    Key.order (project columns r ++ k) (project columns s ++ l) =
      (Key.order (project columns r) (project columns s)).then (Key.order k l) :=
  Key.order_append _ _ (by rw [length_project, length_project])

theorem orderLeading_entry (columns : List Column) (r s : List Cell) (k : Key) :
    Key.orderLeading (project columns r ++ k) (project columns s) =
      Key.order (project columns r) (project columns s) := by
  have hlength : (project columns s).length = (project columns r).length := by rw [length_project, length_project]
  rw [Key.orderLeading_eq (by rw [List.length_append, hlength]; omega), hlength, List.take_left]

namespace Consistent

/-! ## The empty table -/

theorem new {schema : TableSchema} (hnames : DistinctNames schema.secondary) : (Table.new schema).Consistent where
  ascending := OrderedMap.ascending_empty
  fits r hr := absurd hr List.not_mem_nil
  keyed r hr := absurd hr List.not_mem_nil
  names := by
    unfold Table.new
    rw [keys_foldl_insert hnames fun k hk => absurd hk List.not_mem_nil]
    rfl
  indexed index hindex := by
    refine ⟨.empty, get?_foldl_insert (Or.inl hindex), OrderedMap.ascending_empty, fun e => ?_⟩
    constructor
    · exact fun he => absurd he List.not_mem_nil
    · rintro ⟨r, hr, -⟩
      exact absurd hr List.not_mem_nil
  unique index _ _ r hr := absurd hr List.not_mem_nil

/-! ## Looking a row up -/

theorem mem_of_get? (h : t.Consistent) (hrow : t.rows.get? key = some row) :
    (project t.schema.primary.columns row, row) ∈ t.rows.entries ∧
      compare (project t.schema.primary.columns row) key = .eq := by
  obtain ⟨k, hk, heq⟩ := OrderedMap.exists_mem_of_get? hrow
  have := h.keyed _ hk
  dsimp only at this
  subst this
  exact ⟨hk, heq⟩

theorem long (h : t.Consistent) {index : Index} (hindex : index ∈ t.schema.secondary)
    {entries : OrderedMap Key Key} (hget : t.indexes.get? index.name = some entries) :
    ∀ e ∈ entries.entries, index.columns.length ≤ e.1.length := by
  obtain ⟨entries', hget', -, hmem⟩ := h.indexed index hindex
  rw [hget] at hget'
  cases hget'
  intro e he
  obtain ⟨r, -, rfl⟩ := (hmem e).1 he
  rw [List.length_append, length_project]
  omega

/-- **Whether a row collides in an index can be told from the rows.** -/
theorem collides_iff (h : t.Consistent) (row : List Cell) {index : Index} (hindex : index ∈ t.schema.secondary)
    {entries : OrderedMap Key Key} (hget : t.indexes.get? index.name = some entries) :
    collides index entries row = true ↔ index.isUnique = true ∧
      (project index.columns row).any Cell.isNull = false ∧
      ∃ r ∈ t.rows.entries, Key.order (project index.columns r.2) (project index.columns row) = .eq := by
  obtain ⟨entries', hget', hascending, hmem⟩ := h.indexed index hindex
  rw [hget] at hget'
  cases hget'
  rw [Table.collides_iff hascending (h.long hindex hget)]
  refine and_congr_right fun _ => and_congr_right fun _ => ?_
  constructor
  · rintro ⟨e, he, hee⟩
    obtain ⟨r, hr, rfl⟩ := (hmem e).1 he
    rw [orderLeading_entry] at hee
    exact ⟨r, hr, hee⟩
  · rintro ⟨r, hr, hre⟩
    refine ⟨_, (hmem _).2 ⟨r, hr, rfl⟩, ?_⟩
    rw [orderLeading_entry]
    exact hre

theorem refusal?_eq_none_iff (h : t.Consistent) : t.refusal? row = none ↔
    ∀ index ∈ t.schema.secondary, index.isUnique = true → (project index.columns row).any Cell.isNull = false →
      ∀ r ∈ t.rows.entries, Key.order (project index.columns r.2) (project index.columns row) ≠ .eq := by
  unfold Table.refusal?
  rw [List.findSome?_eq_none_iff]
  refine forall₂_congr fun index hindex => ?_
  obtain ⟨entries, hget, -, -⟩ := h.indexed index hindex
  rw [hget]
  have hiff := h.collides_iff row hindex hget
  cases hc : collides index entries row with
  | true =>
    obtain ⟨hunique, hnull, r, hr, hre⟩ := hiff.1 hc
    refine ⟨fun hno => by simp [hc] at hno, fun hno => absurd hre (hno hunique hnull r hr)⟩
  | false =>
    refine ⟨fun _ hunique hnull r hr hre => ?_, fun _ => by simp [hc]⟩
    rw [hiff.2 ⟨hunique, hnull, r, hr, hre⟩] at hc
    cases hc

/-! ## Adding a row -/

/-- **A row that fits, with a new primary key and new unique keys, keeps the table consistent.** -/
theorem withRow (h : t.Consistent) (hnames : DistinctNames t.schema.secondary) (hfits : Fits t.schema.columns row)
    (hnew : t.rows.get? (t.primaryKey row) = none) (hrefusal : t.refusal? row = none) : (t.withRow row).Consistent := by
  have hrows : ∀ r, r ∈ (t.withRow row).rows.entries ↔ r = (t.primaryKey row, row) ∨ r ∈ t.rows.entries := fun r =>
    OrderedMap.mem_insert hnew
  rw [h.refusal?_eq_none_iff] at hrefusal
  refine ⟨OrderedMap.ascending_insert h.ascending, fun r hr => ?_, fun r hr => ?_, ?_, fun index hindex => ?_,
    fun index hindex hunique r hr s hs hnull heq => ?_⟩
  · rcases (hrows r).1 hr with rfl | hr
    · exact hfits
    · exact h.fits r hr
  · rcases (hrows r).1 hr with rfl | hr
    · rfl
    · exact h.keyed r hr
  · exact (keys_foldl_adjust _ _ _).trans h.names
  · obtain ⟨entries, hget, hascending, hmem⟩ := h.indexed index hindex
    refine ⟨entries.insert (indexEntry index row (t.primaryKey row)) (t.primaryKey row), ?_,
      OrderedMap.ascending_insert hascending, fun e => ?_⟩
    · refine (get?_addEntries hnames hindex row (t.primaryKey row)).trans ?_
      rw [hget]
      rfl
    · -- the entry is new because the primary key is
      rw [OrderedMap.mem_insert ?_, hmem]
      · constructor
        · rintro (rfl | ⟨r, hr, rfl⟩)
          · exact ⟨_, (hrows _).2 (Or.inl rfl), rfl⟩
          · exact ⟨r, (hrows r).2 (Or.inr hr), rfl⟩
        · rintro ⟨r, hr, rfl⟩
          rcases (hrows r).1 hr with rfl | hr
          · exact Or.inl rfl
          · exact Or.inr ⟨r, hr, rfl⟩
      · refine OrderedMap.get?_eq_none.2 fun e he heq => ?_
        obtain ⟨r, hr, rfl⟩ := (hmem e).1 he
        have heq : Key.order (project index.columns r.2 ++ r.1) (project index.columns row ++ t.primaryKey row) = .eq :=
          heq
        rw [order_entry, Ordering.then_eq_eq] at heq
        exact OrderedMap.get?_eq_none.1 hnew r hr heq.2
  · rcases (hrows r).1 hr with rfl | hr <;> rcases (hrows s).1 hs with rfl | hs
    · rfl
    · exact absurd (OrientedCmp.eq_symm heq) (hrefusal index hindex hunique hnull s hs)
    · -- equal keys have nulls at the same places
      exact absurd heq (hrefusal index hindex hunique ((Key.any_isNull_congr heq).symm.trans hnull) r hr)
    · exact h.unique index hindex hunique r hr s hs hnull heq

/-! ## Taking a row out -/

/-- **Taking a row out keeps the table consistent.** -/
theorem withoutRow (h : t.Consistent) (hnames : DistinctNames t.schema.secondary) (hrow : t.rows.get? key = some row) :
    (t.withoutRow key row).Consistent := by
  have hrows : ∀ r, r ∈ (t.withoutRow key row).rows.entries ↔ r ∈ t.rows.entries ∧ compare r.1 key ≠ .eq := fun r =>
    OrderedMap.mem_erase
  refine ⟨OrderedMap.ascending_erase h.ascending, fun r hr => h.fits r ((hrows r).1 hr).1,
    fun r hr => h.keyed r ((hrows r).1 hr).1, (keys_foldl_adjust _ _ _).trans h.names, fun index hindex => ?_,
    fun index hindex hunique r hr s hs => h.unique index hindex hunique r ((hrows r).1 hr).1 s ((hrows s).1 hs).1⟩
  obtain ⟨entries, hget, hascending, hmem⟩ := h.indexed index hindex
  refine ⟨entries.erase (indexEntry index row key), ?_, OrderedMap.ascending_erase hascending, fun e => ?_⟩
  · refine (get?_dropEntries hnames hindex row key).trans ?_
    rw [hget]
    rfl
  obtain ⟨hold, hkey⟩ := h.mem_of_get? hrow
  -- only the entry of the row itself has the row's primary key behind the columns of the index
  have hentry : ∀ r ∈ t.rows.entries,
      compare (project index.columns r.2 ++ r.1) (indexEntry index row key) = .eq ↔ compare r.1 key = .eq := by
    intro r hr
    show Key.order (project index.columns r.2 ++ r.1) (project index.columns row ++ key) = .eq ↔ _
    rw [order_entry, Ordering.then_eq_eq]
    refine ⟨fun heq => heq.2, fun heq => ⟨?_, heq⟩⟩
    have hrr := OrderedMap.eq_of_mem_of_mem h.ascending hr hold
      (TransCmp.eq_trans heq (OrderedMap.compare_eq_comm.1 hkey))
    subst hrr
    exact Std.ReflCmp.compare_self
  rw [OrderedMap.mem_erase, hmem]
  constructor
  · rintro ⟨⟨r, hr, rfl⟩, hne⟩
    exact ⟨r, (hrows r).2 ⟨hr, fun heq => hne ((hentry r hr).2 heq)⟩, rfl⟩
  · rintro ⟨r, hr, rfl⟩
    obtain ⟨hr, hne⟩ := (hrows r).1 hr
    exact ⟨⟨r, hr, rfl⟩, fun heq => hne ((hentry r hr).1 heq)⟩

/-! ## A table is its rows -/

/-- **A consistent table is determined by its schema and its rows.** -/
theorem ext {t' : Table} (h : t.Consistent) (h' : t'.Consistent) (hnames : DistinctNames t.schema.secondary)
    (hschema : t.schema = t'.schema) (hrows : ∀ r, r ∈ t.rows.entries ↔ r ∈ t'.rows.entries) : t = t' := by
  have hmaps : ∀ index ∈ t.schema.secondary, t.indexes.get? index.name = t'.indexes.get? index.name := by
    intro index hindex
    obtain ⟨entries, hget, hascending, hmem⟩ := h.indexed index hindex
    obtain ⟨entries', hget', hascending', hmem'⟩ := h'.indexed index (hschema ▸ hindex)
    rw [hget, hget', OrderedMap.ext_of_mem hascending hascending' fun e => ?_]
    rw [hmem, hmem']
    exact exists_congr fun r => and_congr_left fun _ => hrows r
  have hkeys : t.indexes.keys = t'.indexes.keys := by rw [h.names, h'.names, hschema]
  have hascending : t.indexes.Ascending := by
    have hkeysAscending : t.indexes.keys.Pairwise fun a b => compare a b = .lt := by
      rw [h.names]
      exact List.pairwise_map.2 hnames
    exact List.pairwise_map.1 hkeysAscending
  have hindexes : t.indexes = t'.indexes := OrderedMap.ext_of_get? hascending hkeys fun name hname => by
    rw [h.names] at hname
    obtain ⟨index, hindex, rfl⟩ := List.mem_map.1 hname
    exact hmaps index hindex
  have hrows := OrderedMap.ext_of_mem h.ascending h'.ascending hrows
  cases t
  cases t'
  cases hschema
  cases hrows
  cases hindexes
  rfl

theorem refusal?_withoutRow (h : t.Consistent) (hnames : DistinctNames t.schema.secondary)
    (hrow : t.rows.get? key = some row) : (t.withoutRow key row).refusal? row = none := by
  rw [(h.withoutRow hnames hrow).refusal?_eq_none_iff]
  intro index hindex hunique hnull r hr heq
  obtain ⟨hold, hkey⟩ := h.mem_of_get? hrow
  obtain ⟨hr, hne⟩ := OrderedMap.mem_erase.1 hr
  have hrr := h.unique index hindex hunique _ hold r hr hnull (OrientedCmp.eq_symm heq)
  subst hrr
  exact hne hkey

theorem get?_withoutRow (h : t.Consistent) (hrow : t.rows.get? key = some row) :
    (t.withoutRow key row).rows.get? (t.primaryKey row) = none := by
  have hkey : compare key (t.primaryKey row) = .eq := OrderedMap.compare_eq_comm.1 (h.mem_of_get? hrow).2
  unfold Table.withoutRow
  rw [OrderedMap.get?_erase, if_pos hkey]

/-- **A row that is taken out and put back leaves the table as it was.** -/
theorem withRow_withoutRow (h : t.Consistent) (hnames : DistinctNames t.schema.secondary)
    (hrow : t.rows.get? key = some row) : (t.withoutRow key row).withRow row = t := by
  obtain ⟨hold, hkey⟩ := h.mem_of_get? hrow
  have hout := h.withoutRow hnames hrow
  have hnew : (t.withoutRow key row).rows.get? (t.primaryKey row) = none := h.get?_withoutRow hrow
  refine (hout.withRow hnames (h.fits _ hold) hnew (h.refusal?_withoutRow hnames hrow)).ext h hnames rfl fun r => ?_
  refine (OrderedMap.mem_insert hnew).trans ?_
  constructor
  · rintro (rfl | hr)
    · exact hold
    · exact (OrderedMap.mem_erase.1 hr).1
  · intro hr
    by_cases heq : compare r.1 key = .eq
    · exact Or.inl (OrderedMap.eq_of_mem_of_mem h.ascending hr hold
        (TransCmp.eq_trans heq (OrderedMap.compare_eq_comm.1 hkey)))
    · exact Or.inr (OrderedMap.mem_erase.2 ⟨hr, heq⟩)

end Consistent
end Table
end Memory
end RowStore

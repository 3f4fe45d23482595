import RowStore.ByKey
import RowStore.Proofs.StoredRows
import RowStore.Proofs.TableWrites

/-!
# A table as a finite map

To whoever loads and writes single rows a table is a finite map from encoded primary keys to encoded rows (`Contents`),
and each request is one look-up and at most one change of that map (`Request.reference`).  The contents of a table in
memory (`Table.contents`) are such a map: adding a row inserts it, taking a row out erases it, and a row is refused by
the table for the reasons for which the map refuses it (`Populated.rejection?_eq`).
-/
namespace RowStore
namespace Memory

/-! ## The finite map -/

instance (columns : List Column) (row : List Cell) : Decidable (Fits columns row) :=
  decidable_of_iff (columns.length = row.length ∧
    ∀ e ∈ columns.zip row, e.1.isNotNull = true → e.2.isNull = false) <| by
      unfold Fits
      rw [List.forall₂_iff_zip, Prod.forall]

/-- Encoded rows by their encoded primary keys. -/
abbrev Contents := Finmap fun _ : Key => List Cell

namespace Contents

variable (schema : TableSchema) (row : List Cell) (m : Contents)

/-- A row of the map has these cells in the given columns. -/
def HasKey (columns : List Column) (key : Key) : Prop := ∃ e ∈ m.entries, project columns e.2 = key

instance (columns : List Column) (key : Key) : Decidable (m.HasKey columns key) := Multiset.decidableExistsMultiset

/-- A row of the map has the same key in a unique index, and no cell of that key is null. -/
def Taken : Prop :=
  ∃ index ∈ schema.secondary, index.isUnique = true ∧ (project index.columns row).any Cell.isNull = false ∧
    m.HasKey index.columns (project index.columns row)

instance : Decidable (m.Taken schema row) := inferInstanceAs (Decidable (∃ index ∈ schema.secondary, _))

/-- Why a row cannot be added, if it cannot. -/
def refusal? : Option Status :=
  if ¬Fits schema.columns row then some .dataMismatch
  else if project schema.primary.columns row ∈ m ∨ m.Taken schema row then some .duplicateKey
  else none

/-- Adds a row that is not refused. -/
def add : Except Error Unit × Contents :=
  match m.refusal? schema row with
  | some status => (.error (.engine status), m)
  | none => (.ok (), m.insert (project schema.primary.columns row) row)

/-- Replaces the row with the same primary key; that row itself is no reason to refuse the new one. -/
def exchange : Except Error Unit × Contents :=
  match refusal? schema row (m.erase (project schema.primary.columns row)) with
  | some status => (.error (.engine status), m)
  | none => (.ok (), m.insert (project schema.primary.columns row) row)

/-- Replaces the row with the same primary key, and tells whether there was one. -/
def update : Except Error Bool × Contents :=
  if project schema.primary.columns row ∈ m then
    ((m.exchange schema row).1.map fun _ => true, (m.exchange schema row).2)
  else (.ok false, m)

/-- Replaces the row with the same primary key, or adds the row; tells whether it was replaced. -/
def insertOrUpdate : Except Error Bool × Contents :=
  if project schema.primary.columns row ∈ m then
    ((m.exchange schema row).1.map fun _ => true, (m.exchange schema row).2)
  else ((m.add schema row).1.map fun _ => false, (m.add schema row).2)

variable {m} in
theorem erase_of_not_mem {key : Key} (h : key ∉ m) : m.erase key = m :=
  Finmap.ext_lookup fun k => by
    by_cases hk : k = key
    · rw [hk, Finmap.lookup_erase, Finmap.lookup_eq_none.2 h]
    · rw [Finmap.lookup_erase_ne hk]

end Contents

/-! ## Requests -/

/-- A call that loads or writes a single row. -/
inductive Request
  | load (key : Row)
  | insert (row : Row)
  | update (row : Row)
  | insertOrUpdate (row : Row)
  | delete (key : Row)

/-- The answer to a request. -/
inductive Reply
  | loaded (row : Option Row)
  | done
  | found (hit : Bool)
  deriving DecidableEq

namespace Request

/-- The row that a request comes with. -/
def row : Request → Row
  | load row | insert row | update row | insertOrUpdate row | delete row => row

/-- What an engine makes of a request. -/
def perform {σ τ κ : Type} (E : Engine σ τ κ) (txn : τ) (schema : TableSchema) : Request → Action σ Reply
  | load key => Reply.loaded <$> ByKey.load E txn schema key
  | insert row => (fun _ => Reply.done) <$> ByKey.insert E txn schema row
  | update row => Reply.found <$> ByKey.update E txn schema row
  | insertOrUpdate row => Reply.found <$> ByKey.insertOrUpdate E txn schema row
  | delete key => Reply.found <$> ByKey.delete E txn schema key

/-- What a finite map makes of a request with an encoded row. -/
def answer (schema : TableSchema) (cells : List Cell) (m : Contents) : Request → Except Error Reply × Contents
  | load _ => (.ok (.loaded ((m.lookup (project schema.primary.columns cells)).map schema.rowOf)), m)
  | insert _ => ((m.add schema cells).1.map fun _ => .done, (m.add schema cells).2)
  | update _ => ((m.update schema cells).1.map .found, (m.update schema cells).2)
  | insertOrUpdate _ => ((m.insertOrUpdate schema cells).1.map .found, (m.insertOrUpdate schema cells).2)
  | delete _ =>
    (.ok (.found (decide (project schema.primary.columns cells ∈ m))), m.erase (project schema.primary.columns cells))

/-- **The reference for a request**: the row is encoded, and the map answers. -/
def reference (schema : TableSchema) (request : Request) (m : Contents) : Except Error Reply × Contents :=
  match schema.encodeRow request.row with
  | .error e => (.error e, m)
  | .ok cells => request.answer schema cells m

variable {S : Type} (step : Request → S → Except Error Reply × S)

/-- Requests one after the other; one that fails does not stop the others. -/
def runAll : List Request → S → List (Except Error Reply) × S
  | [], s => ([], s)
  | request :: requests, s =>
    let (reply, s) := step request s
    let (replies, s) := runAll requests s
    (reply :: replies, s)

theorem runAll_cons (request : Request) (requests : List Request) (s : S) : runAll step (request :: requests) s =
    ((step request s).1 :: (runAll step requests (step request s).2).1, (runAll step requests (step request s).2).2) :=
  rfl

end Request

/-! ## The contents of a table -/

namespace Table

/-- The rows of a table by their primary keys. -/
def contents (t : Table) : Contents := (t.rows.entries.map fun e => (⟨e.1, e.2⟩ : Σ _ : Key, List Cell)).toFinmap

/-- A consistent table of a schema whose rows store cells of their columns. -/
structure Populated (schema : TableSchema) (t : Table) : Prop where
  sound : t.Sound schema
  stores : ∀ r ∈ t.rows.entries, StoresRow schema.columns r.2

variable {schema : TableSchema} {t : Table} {row : List Cell} {key : Key}

theorem lookup_contents (h : t.rows.Ascending) : t.contents.lookup key = some row ↔ (key, row) ∈ t.rows.entries := by
  have hnodup : (t.rows.entries.map fun e => (⟨e.1, e.2⟩ : Σ _ : Key, List Cell)).NodupKeys := by
    rw [List.NodupKeys, List.keys, List.map_map]
    refine List.pairwise_map.2 (List.Pairwise.imp (fun {a b} hlt heq => ?_) h)
    have hab : a.1 = b.1 := heq
    rw [hab, show compare b.1 b.1 = .eq from Std.ReflCmp.compare_self] at hlt
    cases hlt
  unfold contents
  rw [Finmap.dlookup_list_toFinmap, ← Option.mem_def, List.mem_dlookup_iff hnodup, List.mem_map]
  constructor
  · rintro ⟨e, he, heq⟩
    cases heq
    exact he
  · exact fun h => ⟨_, h, rfl⟩

theorem mem_entries_contents (h : t.rows.Ascending) {e : Σ _ : Key, List Cell} :
    e ∈ t.contents.entries ↔ (e.1, e.2) ∈ t.rows.entries := by
  rw [← lookup_contents h, ← Option.mem_def, Finmap.mem_lookup_iff]

namespace Populated

theorem new (hschema : schema.WellFormed) : (Table.new schema).Populated schema :=
  ⟨Sound.new hschema, fun _ h => absurd h List.not_mem_nil⟩

theorem ascending (h : t.Populated schema) : t.rows.Ascending := h.sound.consistent.ascending

theorem keyed (h : t.Populated schema) {r : Key × List Cell} (hr : r ∈ t.rows.entries) :
    r.1 = project schema.primary.columns r.2 := by
  rw [← h.sound.schema]
  exact h.sound.consistent.keyed r hr

variable (hschema : schema.WellFormed)
include hschema

/-- Among stored rows, keys that compare equal are the same. -/
theorem eq_of_compare (h : t.Populated schema) (hrow : StoresRow schema.columns row) {r : Key × List Cell}
    (hr : r ∈ t.rows.entries) (heq : compare r.1 (project schema.primary.columns row) = .eq) :
    r.1 = project schema.primary.columns row := by
  rw [h.keyed hr] at heq ⊢
  exact (order_project_eq_iff hschema (h.stores r hr) hrow hschema.primary).1 heq

/-- **A table answers a primary key as its contents do.** -/
theorem get?_eq_lookup (h : t.Populated schema) (hrow : StoresRow schema.columns row) :
    t.rows.get? (project schema.primary.columns row) = t.contents.lookup (project schema.primary.columns row) := by
  cases hget : t.rows.get? (project schema.primary.columns row) with
  | some stored =>
    obtain ⟨k, hk, heq⟩ := OrderedMap.exists_mem_of_get? hget
    have hkey : k = project schema.primary.columns row := h.eq_of_compare hschema hrow hk heq
    rw [hkey] at hk
    exact ((lookup_contents h.ascending).2 hk).symm
  | none =>
    cases hlookup : t.contents.lookup (project schema.primary.columns row) with
    | none => rfl
    | some stored =>
      exact absurd Std.ReflCmp.compare_self
        (OrderedMap.get?_eq_none.1 hget _ ((lookup_contents h.ascending).1 hlookup))

/-! ## Refusing -/

theorem taken_iff (h : t.Populated schema) (hrow : StoresRow schema.columns row) :
    t.contents.Taken schema row ↔ t.refusal? row ≠ none := by
  rw [Ne, h.sound.consistent.refusal?_eq_none_iff, h.sound.schema]
  push Not
  refine exists_congr fun index => and_congr_right fun hindex => and_congr_right fun _ => and_congr_right fun _ => ?_
  constructor
  · rintro ⟨e, he, heq⟩
    refine ⟨_, (mem_entries_contents h.ascending).1 he, ?_⟩
    dsimp only
    rw [heq]
    exact Std.ReflCmp.compare_self
  · rintro ⟨r, hr, heq⟩
    refine ⟨⟨r.1, r.2⟩, (mem_entries_contents h.ascending).2 hr, ?_⟩
    exact (order_project_eq_iff hschema (h.stores r hr) hrow (hschema.secondary index hindex)).1 heq

omit hschema in
/-- The only refusal of the indexes is a duplicate key. -/
theorem refusal?_eq_duplicateKey (h : t.Populated schema) {status : Status} (hrefusal : t.refusal? row = some status) :
    status = .duplicateKey := by
  obtain ⟨index, hindex, hsome⟩ := List.exists_of_findSome?_eq_some hrefusal
  obtain ⟨entries, hget, -, -⟩ := h.sound.consistent.indexed index hindex
  rw [hget] at hsome
  dsimp only at hsome
  split at hsome
  · cases hsome
    rfl
  · cases hsome

/-- **A table refuses a row for the reasons for which its contents do.** -/
theorem rejection?_eq (h : t.Populated schema) (hrow : StoresRow schema.columns row) :
    t.rejection? row = t.contents.refusal? schema row := by
  have hfits : t.fits row = true ↔ Fits t.schema.columns row := fits_iff
  have hget : (t.rows.get? (t.primaryKey row)).isSome = true ↔ project schema.primary.columns row ∈ t.contents := by
    unfold Table.primaryKey
    rw [h.sound.schema, h.get?_eq_lookup hschema hrow, Finmap.lookup_isSome]
  rw [h.sound.schema] at hfits
  unfold rejection? Contents.refusal? OrderedMap.contains
  cases hf : t.fits row with
  | false =>
    rw [hf] at hfits
    rw [if_pos (fun hfit => Bool.false_ne_true (hfits.2 hfit))]
    rfl
  | true =>
    rw [if_neg (not_not_intro (hfits.1 hf))]
    by_cases hmem : project schema.primary.columns row ∈ t.contents
    · simp [hmem, hget.2 hmem]
    · cases hrefusal : t.refusal? row with
      | none => simp [hmem, hget, h.taken_iff hschema hrow, hrefusal]
      | some status => simp [hmem, hget, h.taken_iff hschema hrow, hrefusal, h.refusal?_eq_duplicateKey hrefusal]

/-! ## Changing -/

theorem withRow (h : t.Populated schema) (hrow : StoresRow schema.columns row) (hnew : t.rejection? row = none) :
    (t.withRow row).Populated schema := by
  refine ⟨h.sound.withRow hschema hnew, fun r hr => ?_⟩
  rcases OrderedMap.mem_insert_imp hr with ⟨-, heq⟩ | hr
  · rw [heq]
    exact hrow
  · exact h.stores r hr

theorem withoutRow (h : t.Populated schema) (hrow : t.rows.get? key = some row) :
    (t.withoutRow key row).Populated schema :=
  ⟨h.sound.withoutRow hschema hrow, fun r hr => h.stores r (OrderedMap.mem_erase.1 hr).1⟩

omit hschema in
/-- **Adding a row inserts it.** -/
theorem contents_withRow (h : t.Populated schema) (hnew : t.rejection? row = none) :
    (t.withRow row).contents = t.contents.insert (project schema.primary.columns row) row := by
  have hget := (rejection?_eq_none_iff.1 hnew).2.1
  have hmem : ∀ e, e ∈ (t.withRow row).rows.entries ↔ e = (t.primaryKey row, row) ∨ e ∈ t.rows.entries := fun e =>
    OrderedMap.mem_insert hget
  have hkey : t.primaryKey row = project schema.primary.columns row := by
    unfold Table.primaryKey
    rw [h.sound.schema]
  rw [hkey] at hmem hget
  refine Finmap.ext_lookup fun k => Option.ext fun stored => ?_
  rw [lookup_contents (OrderedMap.ascending_insert h.ascending), hmem]
  by_cases hk : k = project schema.primary.columns row
  · subst hk
    rw [Finmap.lookup_insert]
    constructor
    · rintro (heq | hold)
      · cases heq
        rfl
      · exact absurd Std.ReflCmp.compare_self (OrderedMap.get?_eq_none.1 hget _ hold)
    · intro heq
      cases heq
      exact Or.inl rfl
  · rw [Finmap.lookup_insert_of_ne _ hk, lookup_contents h.ascending]
    exact ⟨fun hor => hor.resolve_left fun heq => hk (congrArg Prod.fst heq), Or.inr⟩

/-- **Taking a row out erases it.** -/
theorem contents_withoutRow (h : t.Populated schema) (hrow : StoresRow schema.columns row) (stored : List Cell) :
    (t.withoutRow (project schema.primary.columns row) stored).contents =
      t.contents.erase (project schema.primary.columns row) := by
  refine Finmap.ext_lookup fun k => Option.ext fun other => ?_
  rw [lookup_contents (OrderedMap.ascending_erase h.ascending)]
  have hmem : (k, other) ∈ (t.withoutRow (project schema.primary.columns row) stored).rows.entries ↔
      (k, other) ∈ t.rows.entries ∧ compare k (project schema.primary.columns row) ≠ .eq := OrderedMap.mem_erase
  rw [hmem]
  by_cases hk : k = project schema.primary.columns row
  · subst hk
    rw [Finmap.lookup_erase]
    exact ⟨fun hand => absurd Std.ReflCmp.compare_self hand.2, fun heq => by cases heq⟩
  · rw [Finmap.lookup_erase_ne hk, lookup_contents h.ascending]
    exact ⟨fun hand => hand.1, fun hother => ⟨hother, fun heq => hk (h.eq_of_compare hschema hrow hother heq)⟩⟩

theorem not_isNull_key (hnotNull : ∀ c ∈ schema.primary.columns, c.isNotNull = true) (h : t.Populated schema)
    {r : Key × List Cell} (hr : r ∈ t.rows.entries) :
    (project schema.primary.columns r.2).any Cell.isNull = false := by
  have hfits := h.sound.consistent.fits r hr
  rw [h.sound.schema] at hfits
  rw [List.any_eq_false]
  intro x hx
  obtain ⟨c, hc, rfl⟩ := List.mem_map.1 hx
  obtain ⟨cell, hcell, hnn⟩ := hschema.cell hfits (hschema.primary c hc)
  rw [hcell, Option.getD_some, hnn (hnotNull c hc)]
  exact Bool.false_ne_true

/-! ## Writes refine the map -/

theorem insert_refines (h : t.Populated schema) (hrow : StoresRow schema.columns row) :
    ∃ t', Table.insert row t = ((t.contents.add schema row).1, t') ∧ t'.Populated schema ∧
      t'.contents = (t.contents.add schema row).2 := by
  rw [insert_apply]
  unfold Contents.add
  rw [← h.rejection?_eq hschema hrow]
  cases hnew : t.rejection? row with
  | some status => exact ⟨t, rfl, h, rfl⟩
  | none => exact ⟨t.withRow row, rfl, h.withRow hschema hrow hnew, h.contents_withRow hnew⟩

theorem replace_refines (h : t.Populated schema) (hrow : StoresRow schema.columns row) {old : List Cell}
    (hold : t.rows.get? (project schema.primary.columns row) = some old) :
    ∃ t', Table.replace (project schema.primary.columns row) row t = ((t.contents.exchange schema row).1, t') ∧
      t'.Populated schema ∧ t'.contents = (t.contents.exchange schema row).2 := by
  have hout := h.withoutRow hschema hold
  have hrejection := hout.rejection?_eq hschema hrow
  rw [h.contents_withoutRow hschema hrow old] at hrejection
  rw [replace_apply h.sound.consistent (h.sound.schema ▸ hschema.indexNames), hold]
  unfold Contents.exchange
  rw [← hrejection]
  cases hf : t.fits row with
  | false =>
    have hunfit : (t.withoutRow (project schema.primary.columns row) old).rejection? row = some .dataMismatch := by
      have hsame : (t.withoutRow (project schema.primary.columns row) old).fits row = t.fits row := rfl
      unfold rejection?
      rw [hsame, hf]
      rfl
    rw [hunfit]
    exact ⟨t, rfl, h, rfl⟩
  | true =>
    simp only [if_true]
    cases hnew : (t.withoutRow (project schema.primary.columns row) old).rejection? row with
    | some status => exact ⟨t, rfl, h, rfl⟩
    | none =>
      refine ⟨_, rfl, hout.withRow hschema hrow hnew, ?_⟩
      rw [hout.contents_withRow hnew, h.contents_withoutRow hschema hrow]
      refine Finmap.ext_lookup fun k => ?_
      by_cases hk : k = project schema.primary.columns row
      · rw [hk, Finmap.lookup_insert, Finmap.lookup_insert]
      · rw [Finmap.lookup_insert_of_ne _ hk, Finmap.lookup_insert_of_ne _ hk, Finmap.lookup_erase_ne hk]

theorem remove_refines (h : t.Populated schema) (hrow : StoresRow schema.columns row) {old : List Cell}
    (hold : t.rows.get? (project schema.primary.columns row) = some old) :
    ∃ t', Table.remove (project schema.primary.columns row) t = (.ok old, t') ∧ t'.Populated schema ∧
      t'.contents = t.contents.erase (project schema.primary.columns row) := by
  rw [remove_apply, hold]
  exact ⟨_, rfl, h.withoutRow hschema hold, h.contents_withoutRow hschema hrow old⟩

/-! ## Writes of any kind keep a table populated -/

theorem insert (h : t.Populated schema) (hrow : StoresRow schema.columns row) :
    (Table.insert row t).2.Populated schema := by
  obtain ⟨t', hinsert, ht', -⟩ := h.insert_refines hschema hrow
  rw [hinsert]
  exact ht'

theorem replace (h : t.Populated schema) (hrow : StoresRow schema.columns row) (key : Key) :
    (Table.replace key row t).2.Populated schema := by
  rw [replace_apply h.sound.consistent (h.sound.schema ▸ hschema.indexNames)]
  split
  · cases hold : t.rows.get? key with
    | none => exact h
    | some old =>
      dsimp only
      cases hnew : (t.withoutRow key old).rejection? row with
      | some status => exact h
      | none => exact (h.withoutRow hschema hold).withRow hschema hrow hnew
  · exact h

theorem remove (h : t.Populated schema) (key : Key) : (Table.remove key t).2.Populated schema := by
  rw [remove_apply]
  cases hold : t.rows.get? key with
  | none => exact h
  | some old => exact h.withoutRow hschema hold

end Populated
end Table
end Memory
end RowStore

import RowStore.Proofs.Requests

/-!
# Rows that only name a key

A call that looks for a row by its primary key reads nothing but the columns of the key.  So it does with a row that only
names the key (`Row.restrict`) what it does with any other row of the same key, also where the other columns of that row
could not be encoded (`ends_deleteKey`).
-/
namespace RowStore

open Memory (project)

namespace Row

/-- A row with the values of some columns only. -/
def restrict (columns : List Column) (row : Row) : Row := ⟨columns.map fun c => (c.name, row.value c.name)⟩

theorem value_restrict (row : Row) (name : String) : ∀ columns : List Column,
    (row.restrict columns).value name = if name ∈ columns.map (·.name) then row.value name else .null
  | [] => rfl
  | c :: columns => by
    have ih := value_restrict row name columns
    unfold restrict value get? at ih ⊢
    rw [List.map_cons, List.map_cons, List.find?_cons]
    by_cases hname : c.name = name
    · subst hname
      simp
    · have hne : (c.name == name) = false := beq_eq_false_iff_ne.2 hname
      rw [hne]
      simp only [List.mem_cons, Ne.symm hname, false_or]
      exact ih

theorem value_restrict_of_mem (row : Row) {columns : List Column} {c : Column} (hc : c ∈ columns) :
    (row.restrict columns).value c.name = row.value c.name := by
  rw [value_restrict, if_pos (List.mem_map_of_mem hc)]

end Row

/-! ## What only depends on some columns -/

theorem encodeColumns_congr {row row' : Row} : ∀ {columns : List Column},
    (∀ c ∈ columns, row.value c.name = row'.value c.name) → encodeColumns columns row = encodeColumns columns row'
  | [], _ => rfl
  | c :: columns, h => by
    have ih := encodeColumns_congr fun d hd => h d (List.mem_cons_of_mem _ hd)
    unfold encodeColumns at ih ⊢
    rw [List.mapM_cons, List.mapM_cons, ih, h c List.mem_cons_self]

theorem leadingColumns_congr {row row' : Row} : ∀ {columns : List Column},
    (∀ c ∈ columns, row.value c.name = row'.value c.name) → leadingColumns columns row = leadingColumns columns row'
  | [], _ => rfl
  | c :: columns, h => by
    have ih := leadingColumns_congr fun d hd => h d (List.mem_cons_of_mem _ hd)
    unfold leadingColumns at ih ⊢
    rw [List.takeWhile_cons, List.takeWhile_cons, ih, h c List.mem_cons_self]

theorem encodeLeading_congr {row row' : Row} {columns : List Column}
    (h : ∀ c ∈ columns, row.value c.name = row'.value c.name) : encodeLeading columns row = encodeLeading columns row' := by
  unfold encodeLeading
  rw [leadingColumns_congr h]
  exact encodeColumns_congr fun c hc => h c ((List.takeWhile_sublist _).subset hc)

theorem agreeOn_congr {row row' : Row} (found : Row) : ∀ {columns : List Column},
    (∀ c ∈ columns, row.value c.name = row'.value c.name) → Row.agreeOn columns row found = Row.agreeOn columns row' found
  | [], _ => rfl
  | c :: columns, h => by
    have ih := agreeOn_congr found fun d hd => h d (List.mem_cons_of_mem _ hd)
    unfold Row.agreeOn at ih ⊢
    rw [List.all_cons, List.all_cons, ih, h c List.mem_cons_self]

namespace ByKey

variable {σ τ κ : Type} (E : Engine σ τ κ) {schema : TableSchema} {row row' : Row}

theorem find_congr {α : Type} (use : Row → Action (Tuple × κ × σ) α)
    (h : ∀ c ∈ schema.primary.columns, row.value c.name = row'.value c.name) :
    find E schema row use = find E schema row' use := by
  unfold find
  rw [encodeLeading_congr h]
  simp only [agreeOn_congr _ h]

theorem delete_congr (txn : τ) (h : ∀ c ∈ schema.primary.columns, row.value c.name = row'.value c.name) :
    delete E txn schema row = delete E txn schema row' := by
  unfold delete
  rw [find_congr E _ h]

end ByKey

/-! ## Deleting the row of a key -/

theorem TableSchema.WellFormed.eq_of_name {schema : TableSchema} (h : schema.WellFormed) {c d : Column}
    (hc : c ∈ schema.columns) (hd : d ∈ schema.columns) (hname : c.name = d.name) : c = d :=
  List.inj_on_of_nodup_map h.columnNames hc hd hname

/-- **A row that only names a key can be encoded** if its key can. -/
theorem encodeRow_restrict {schema : TableSchema} (h : schema.WellFormed) {row : Row} {key : Key}
    (hkey : encodeColumns schema.primary.columns row = .ok key) :
    ∃ cells, schema.encodeRow (row.restrict schema.primary.columns) = .ok cells ∧
      project schema.primary.columns cells = key := by
  obtain ⟨cells, hcells⟩ : ∃ cells, schema.encodeRow (row.restrict schema.primary.columns) = .ok cells := by
    refine exists_mapM_ok_iff.2 fun c hc => ?_
    rw [Row.value_restrict]
    split
    · rename_i hname
      obtain ⟨d, hd, heq⟩ := List.mem_map.1 hname
      cases h.eq_of_name (h.primary d hd) hc heq
      exact exists_mapM_ok_iff.1 ⟨key, hkey⟩ c hd
    · exact ⟨.null, rfl⟩
  refine ⟨cells, hcells, ?_⟩
  have hproject := encodeColumns_eq h hcells h.primary
  rw [encodeColumns_congr fun c hc => row.value_restrict_of_mem hc, hkey] at hproject
  exact (Except.ok.inj hproject).symm

namespace Memory

open Attempt

/-- **Deleting takes the row of the key out, if there is one**, whatever else the row that names the key has. -/
theorem ends_deleteKey {schema : TableSchema} {txn : Transaction} {db : Database} {t : Table} {row : Row} {key : Key}
    (hschema : schema.Keyed) (hkey : encodeColumns schema.primary.columns row = .ok key) (ht : t.Populated schema)
    (h : db.Sees txn.id schema.name t) :
    Refines schema txn db (ByKey.delete engine txn schema row) (.ok (decide (key ∈ t.contents)), t.contents.erase key) := by
  obtain ⟨cells, hrow, rfl⟩ := encodeRow_restrict hschema.wellFormed hkey
  rw [ByKey.delete_congr engine txn fun c hc => (row.value_restrict_of_mem hc).symm]
  exact ends_delete hschema hrow ht h

end Memory
end RowStore

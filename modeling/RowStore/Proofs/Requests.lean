import RowStore.Proofs.FoundRows

/-!
# Requests end as the finite map answers

In a transaction that sees a table of stored rows, each call of `ByKey` ends with the answer of the finite map of the
table's contents, and leaves a table whose contents are the map's (`ends_load` to `ends_delete`).  So does a list of
requests (`runAll_eq`).
-/
namespace RowStore

/-- What a request needs of a schema: it was built, its columns can be read back, and its primary key is never null. -/
structure TableSchema.Keyed (schema : TableSchema) : Prop where
  wellFormed : schema.WellFormed
  basic : schema.IsBasic
  notNull : ∀ c ∈ schema.primary.columns, c.isNotNull = true

namespace Memory

open Attempt
open Cursor (At)

variable {schema : TableSchema} {txn : Transaction} {db : Database} {t : Table} {row : Row} {cells : List Cell}

/-- A computation ends with an answer of the finite map and the map's contents. -/
def Refines {α : Type} (schema : TableSchema) (txn : Transaction) (db : Database) (m : Action Database α)
    (answer : Except Error α × Contents) : Prop :=
  ∃ t' : Table, t'.Populated schema ∧ t'.contents = answer.2 ∧
    Ends m db answer.1 fun db' => db'.Has txn.id schema.name t'

theorem Refines.map {α β : Type} {m : Action Database α} {answer : Except Error α × Contents} (f : α → β)
    (h : Refines schema txn db m answer) : Refines schema txn db (f <$> m) (answer.1.map f, answer.2) := by
  obtain ⟨t', ht', hcontents, hends⟩ := h
  exact ⟨t', ht', hcontents, hends.map⟩

/-- **What is found is what the finite map has under the key.** -/
theorem found_eq_lookup (hschema : schema.Keyed) (hrow : schema.encodeRow row = .ok cells) (ht : t.Populated schema) :
    t.found schema row = .ok (t.contents.lookup (project schema.primary.columns cells)) := by
  have hcells := stores_of_encodeRow hschema.basic hrow
  have hget := ht.get?_eq_lookup hschema.wellFormed hcells
  rw [← hget]
  refine Table.found_eq_get? hschema.wellFormed hschema.basic hrow ht fun stored hstored => ?_
  -- the key is that of a stored row, and so none of its cells is null
  rw [hget, Table.lookup_contents ht.ascending] at hstored
  have hkey : project schema.primary.columns cells = project schema.primary.columns stored := ht.keyed hstored
  have hnull := ht.not_isNull_key hschema.wellFormed hschema.notNull hstored
  rw [← hkey] at hnull
  have hleading := leadingColumns_eq_self hschema.wellFormed (encodes_of_encodeRow hschema.basic hrow)
    hschema.wellFormed.primary hnull
  refine List.pairwise_of_forall_mem_list fun c hc d _ hcnull => ?_
  have hall := List.takeWhile_eq_self_iff.1 hleading c hc
  rw [hcnull] at hall
  cases hall

/-- Work that answers and leaves what the finite map does. -/
theorem Refines.of_does {α : Type} {call : Action Database α} {work : Action Table α} {answer : Except Error α × Contents}
    {t' : Table} (h : Does schema txn db t call work) (hwork : work t = (answer.1, t')) (ht' : t'.Populated schema)
    (hcontents : t'.contents = answer.2) : Refines schema txn db call answer := by
  unfold Does at h
  rw [hwork] at h
  exact ⟨t', ht', hcontents, h⟩

/-- Replacing the row that is found exchanges it. -/
theorem replace_found (hschema : schema.WellFormed) (hbasic : schema.IsBasic) (hrow : schema.encodeRow row = .ok cells)
    (ht : t.Populated schema) {old : List Cell}
    (hlookup : t.contents.lookup (project schema.primary.columns cells) = some old) :
    ∃ t' : Table, ((fun _ => true) <$> Table.replace (project schema.primary.columns old) cells) t =
        ((t.contents.exchange schema cells).1.map fun _ => true, t') ∧
      t'.Populated schema ∧ t'.contents = (t.contents.exchange schema cells).2 := by
  have hcells := stores_of_encodeRow hbasic hrow
  have hkey : project schema.primary.columns cells = project schema.primary.columns old :=
    ht.keyed ((Table.lookup_contents ht.ascending).1 hlookup)
  rw [← ht.get?_eq_lookup hschema hcells] at hlookup
  obtain ⟨t', hreplace, ht', hcontents⟩ := ht.replace_refines hschema hcells hlookup
  refine ⟨t', ?_, ht', hcontents⟩
  rw [map_apply, ← hkey, hreplace]

section
variable (hschema : schema.Keyed) (hrow : schema.encodeRow row = .ok cells) (ht : t.Populated schema)
  (h : db.Sees txn.id schema.name t)
include hschema hrow ht h

/-! ## The calls -/

/-- **Loading answers the row of the key**, read back. -/
theorem ends_load : Refines schema txn db (ByKey.load engine txn schema row)
    (.ok ((t.contents.lookup (project schema.primary.columns cells)).map schema.rowOf), t.contents) := by
  refine Refines.of_does (does_load hschema.wellFormed hschema.basic ht h row) ?_ ht rfl
  rw [Table.Work.load_apply, found_eq_lookup hschema hrow ht]
  rfl

/-- **Inserting adds the row.** -/
theorem ends_insert : Refines schema txn db (ByKey.insert engine txn schema row) (t.contents.add schema cells) := by
  obtain ⟨t', hinsert, ht', hcontents⟩ := ht.insert_refines hschema.wellFormed (stores_of_encodeRow hschema.basic hrow)
  refine Refines.of_does (does_insert h row) ?_ ht' hcontents
  rw [Table.Work.insert_apply, hrow]
  exact hinsert

/-- **Updating replaces the row of the key, if there is one.** -/
theorem ends_update : Refines schema txn db (ByKey.update engine txn schema row) (t.contents.update schema cells) := by
  have hdoes := does_update hschema.wellFormed hschema.basic ht h row
  have hfound := found_eq_lookup hschema hrow ht
  unfold Contents.update
  cases hlookup : t.contents.lookup (project schema.primary.columns cells) with
  | none =>
    rw [if_neg (Finmap.lookup_eq_none.1 hlookup)]
    refine Refines.of_does hdoes ?_ ht rfl
    rw [Table.Work.update_apply, hfound, hlookup]
  | some old =>
    obtain ⟨t', hreplace, ht', hcontents⟩ := replace_found hschema.wellFormed hschema.basic hrow ht hlookup
    rw [if_pos (Finmap.mem_of_lookup_eq_some hlookup)]
    refine Refines.of_does hdoes ?_ ht' hcontents
    rw [Table.Work.update_apply, hfound, hlookup, hrow]
    exact hreplace

/-- **Inserting or updating replaces the row of the key, or adds the row.** -/
theorem ends_insertOrUpdate :
    Refines schema txn db (ByKey.insertOrUpdate engine txn schema row) (t.contents.insertOrUpdate schema cells) := by
  have hdoes := does_insertOrUpdate hschema.wellFormed hschema.basic ht h row
  have hfound := found_eq_lookup hschema hrow ht
  unfold Contents.insertOrUpdate
  cases hlookup : t.contents.lookup (project schema.primary.columns cells) with
  | none =>
    obtain ⟨t', hinsert, ht', hcontents⟩ :=
      ht.insert_refines hschema.wellFormed (stores_of_encodeRow hschema.basic hrow)
    rw [if_neg (Finmap.lookup_eq_none.1 hlookup)]
    refine Refines.of_does hdoes ?_ ht' hcontents
    rw [Table.Work.insertOrUpdate_apply, hfound, hlookup, hrow]
    dsimp only
    rw [map_apply, hinsert]
  | some old =>
    obtain ⟨t', hreplace, ht', hcontents⟩ := replace_found hschema.wellFormed hschema.basic hrow ht hlookup
    rw [if_pos (Finmap.mem_of_lookup_eq_some hlookup)]
    refine Refines.of_does hdoes ?_ ht' hcontents
    rw [Table.Work.insertOrUpdate_apply, hfound, hlookup, hrow]
    exact hreplace

/-- **Deleting takes the row of the key out, if there is one.** -/
theorem ends_delete : Refines schema txn db (ByKey.delete engine txn schema row)
    (.ok (decide (project schema.primary.columns cells ∈ t.contents)),
      t.contents.erase (project schema.primary.columns cells)) := by
  have hcells := stores_of_encodeRow hschema.basic hrow
  have hdoes := does_delete hschema.wellFormed hschema.basic ht h row
  have hfound := found_eq_lookup hschema hrow ht
  cases hlookup : t.contents.lookup (project schema.primary.columns cells) with
  | none =>
    have hmem := Finmap.lookup_eq_none.1 hlookup
    rw [decide_eq_false hmem]
    refine Refines.of_does hdoes ?_ ht (Contents.erase_of_not_mem hmem).symm
    rw [Table.Work.delete_apply, hfound, hlookup]
  | some old =>
    have hkey : project schema.primary.columns cells = project schema.primary.columns old :=
      ht.keyed ((Table.lookup_contents ht.ascending).1 hlookup)
    rw [decide_eq_true (Finmap.mem_of_lookup_eq_some hlookup)]
    obtain ⟨t', hremove, ht', hcontents⟩ := ht.remove_refines hschema.wellFormed hcells
      ((ht.get?_eq_lookup hschema.wellFormed hcells).trans hlookup)
    refine Refines.of_does hdoes ?_ ht' hcontents
    rw [Table.Work.delete_apply, hfound, hlookup]
    dsimp only
    rw [map_apply, ← hkey, hremove]
    rfl

end

/-! ## Requests -/

/-- **A request ends as the finite map answers it.** -/
theorem ends_request (hschema : schema.Keyed) (request : Request) (hrow : schema.encodeRow request.row = .ok cells)
    (ht : t.Populated schema) (h : db.Sees txn.id schema.name t) :
    Refines schema txn db (request.perform engine txn schema) (request.answer schema cells t.contents) := by
  cases request with
  | load key => exact (ends_load hschema hrow ht h).map Reply.loaded
  | insert row => exact (ends_insert hschema hrow ht h).map fun _ => Reply.done
  | update row => exact (ends_update hschema hrow ht h).map Reply.found
  | insertOrUpdate row => exact (ends_insertOrUpdate hschema hrow ht h).map Reply.found
  | delete key => exact (ends_delete hschema hrow ht h).map Reply.found

/-- **A list of requests ends as the finite map answers it.** -/
theorem runAll_eq (hschema : schema.Keyed) : ∀ {requests : List Request} {db : Database} {t : Table},
    (∀ request ∈ requests, ∃ cells, schema.encodeRow request.row = .ok cells) → t.Populated schema →
      db.Sees txn.id schema.name t →
      (Request.runAll (fun request db => request.perform engine txn schema db) requests db).1 =
          (Request.runAll (Request.reference schema) requests t.contents).1 ∧
        ∃ t' : Table, (Request.runAll (fun request db => request.perform engine txn schema db) requests db).2.Sees txn.id
            schema.name t' ∧ t'.Populated schema ∧
          t'.contents = (Request.runAll (Request.reference schema) requests t.contents).2
  | [], db, t, _, ht, h => ⟨rfl, t, h, ht, rfl⟩
  | request :: requests, db, t, hrows, ht, h => by
    obtain ⟨cells, hrow⟩ := hrows request List.mem_cons_self
    obtain ⟨t', ht', hcontents, hends⟩ := ends_request hschema request hrow ht h
    obtain ⟨db', hdb', hhas⟩ := hends.apply
    have hreference : request.reference schema t.contents = request.answer schema cells t.contents := by
      unfold Request.reference
      rw [hrow]
    have ih := runAll_eq hschema (fun r hr => hrows r (List.mem_cons_of_mem _ hr)) ht' hhas.sees
    rw [Request.runAll_cons, Request.runAll_cons, hdb', hreference, ← hcontents]
    exact ⟨congrArg _ ih.1, ih.2⟩

end Memory
end RowStore

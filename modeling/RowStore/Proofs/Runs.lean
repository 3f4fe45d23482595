import RowStore.Proofs.AllTables
import RowStore.Proofs.CallAnswers
import RowStore.Proofs.TableWrites

/-!
# Runs of the database

A property of tables that every call's writes keep (`Call.KeepsTables`) holds of all tables in every database that a run
leads to (`all_run`).  One such property is that the table is consistent (`consistent_run`).
-/
namespace RowStore
namespace Memory

open Attempt

variable {P : String → Table → Prop}

/-- The writes of rows of a schema keep a property of the tables of its name. -/
structure WritesKeep (P : String → Table → Prop) (schema : TableSchema) (row : Row) : Prop where
  insert : ∀ payload, schema.encodeRow row = .ok payload → Keeps (P schema.name) (Table.insert payload)
  replace : ∀ payload, schema.encodeRow row = .ok payload → ∀ key, Keeps (P schema.name) (Table.replace key payload)
  remove : ∀ key, Keeps (P schema.name) (Table.remove key)

namespace Call

/-- The writes of a call keep a property of tables. -/
def KeepsTables (P : String → Table → Prop) : Call → Prop
  | createTable d => ∀ schema, d.build = .ok schema → P schema.name (.new schema)
  | truncateTable name => ∀ t, P name t → P name (.new t.schema)
  | insertRow cursor _ cells => Keeps (P cursor.schema.name) (Table.insert cells)
  | updateRow cursor _ cells => ∀ key, Keeps (P cursor.schema.name) (Table.replace key cells)
  | deleteRow cursor => ∀ key, Keeps (P cursor.schema.name) (Table.remove key)
  | insert _ schema row | update _ schema row | insertOrUpdate _ schema row => WritesKeep P schema row
  | delete _ schema _ => ∀ key, Keeps (P schema.name) (Table.remove key)
  | _ => True

theorem KeepsTables.means {call : Call} (h : call.KeepsTables P) {id : Nat} {name : String} (hon : call.On id name) :
    call.Means (allBond P name) := by
  obtain ⟨-, hname⟩ := hon
  cases call with
  | insertRow | updateRow | deleteRow | delete =>
    cases hname
    exact h
  | insert =>
    cases hname
    exact h.insert
  | update =>
    cases hname
    exact h.replace
  | insertOrUpdate =>
    cases hname
    exact fun payload hpayload => ⟨h.insert payload hpayload, h.replace payload hpayload⟩
  | _ => exact True.intro

/-- **A call keeps what its writes keep.** -/
theorem all_effect {call : Call} (h : call.KeepsTables P) {db : Database} (hdb : db.All P) :
    (call.effect db).All P := by
  rcases call.cases with hnone | ⟨id, hid, hends | ⟨name, hon⟩⟩
  · cases call with
    | createTable d =>
      dsimp only [effect]
      split
      · rename_i schema hschema
        exact hdb.createTable (h schema hschema)
      · exact hdb
    | dropTable name => exact hdb.dropTable name
    | truncateTable name => exact hdb.truncateTable h
    | begin level => exact hdb.begin level
    | disposeTuple tuple =>
      dsimp only [effect, quietly]
      rw [Tuple.dispose_apply]
      split
      · exact hdb
      · exact hdb.ledger _
    | _ => cases hnone
  · cases call with
    | commit | rollback => exact hdb.finish _ _
    | createTable | dropTable | truncateTable | begin | disposeTuple => cases hid
    | _ => cases hends.2
  · exact Bond.keeps_effect (links_allBond P id name) (h.means hon) hon hdb

end Call

namespace Database

/-- **A run keeps what each of its calls keeps.** -/
theorem all_run {calls : List Call} (h : ∀ call ∈ calls, call.KeepsTables P) : (run calls).All P := by
  unfold run
  suffices hfold : ∀ (calls : List Call) (db : Database), (∀ call ∈ calls, call.KeepsTables P) → db.All P →
      (calls.foldl (fun db call => call.effect db) db).All P from hfold calls {} h All.empty
  intro calls
  induction calls with
  | nil => exact fun _ _ hdb => hdb
  | cons call calls ih =>
    intro db h hdb
    rw [List.foldl_cons]
    exact ih _ (fun c hc => h c (List.mem_cons_of_mem _ hc)) (Call.all_effect (h call List.mem_cons_self) hdb)

end Database

/-! ## The invariant of the database -/

/-- What holds of the tables of a name: the schema was built for that name, and the table is consistent. -/
def Kept (name : String) (t : Table) : Prop := t.schema.name = name ∧ t.schema.WellFormed ∧ t.Consistent

theorem Kept.of_sound {name : String} {t t' : Table} (h : Kept name t)
    (hsound : t.Sound t.schema → t'.Sound t.schema) : Kept name t' := by
  obtain ⟨hschema, hconsistent⟩ := hsound ⟨rfl, h.2.2⟩
  exact ⟨hschema ▸ h.1, hschema ▸ h.2.1, hconsistent⟩

theorem keeps_kept_insert (name : String) (row : List Cell) : Keeps (Kept name) (Table.insert row) :=
  fun _ h => h.of_sound fun hsound => hsound.insert h.2.1 row

theorem keeps_kept_replace (name : String) (key : Key) (row : List Cell) : Keeps (Kept name) (Table.replace key row) :=
  fun _ h => h.of_sound fun hsound => hsound.replace h.2.1 key row

theorem keeps_kept_remove (name : String) (key : Key) : Keeps (Kept name) (Table.remove key) :=
  fun _ h => h.of_sound fun hsound => hsound.remove h.2.1 key

theorem kept_new {d : Declaration} {schema : TableSchema} (h : d.build = .ok schema) : Kept schema.name (.new schema) :=
  ⟨rfl, TableSchema.wellFormed_of_build h, Table.Consistent.new (TableSchema.wellFormed_of_build h).indexNames⟩

theorem Call.keepsTables_kept (call : Call) : call.KeepsTables Kept := by
  cases call with
  | createTable d => exact fun schema h => kept_new h
  | truncateTable name => exact fun t h => ⟨h.1, h.2.1, Table.Consistent.new h.2.1.indexNames⟩
  | insertRow cursor tuple cells => exact keeps_kept_insert _ cells
  | updateRow cursor tuple cells => exact fun key => keeps_kept_replace _ key cells
  | deleteRow cursor => exact keeps_kept_remove _
  | delete txn schema key => exact keeps_kept_remove _
  | insert txn schema row | update txn schema row | insertOrUpdate txn schema row =>
    exact ⟨fun payload _ => keeps_kept_insert _ payload, fun payload _ key => keeps_kept_replace _ key payload,
      keeps_kept_remove _⟩
  | _ => exact True.intro

/-- **In every database that calls lead to, all tables, committed or copied, are consistent**, whatever the calls, in
whatever order and with whatever rows. -/
theorem Database.consistent_run (calls : List Call) : (Database.run calls).All Kept :=
  Database.all_run fun call _ => call.keepsTables_kept

end Memory
end RowStore

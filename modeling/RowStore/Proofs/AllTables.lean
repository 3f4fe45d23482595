import RowStore.Proofs.CursorMirrors
import RowStore.Proofs.MapLaws

/-!
# What holds of all tables

A table is committed under its name or is a transaction's copy.  A property holds of all tables (`Database.All`) if it
holds of both kinds, and it goes on to hold as long as no table that is created or truncated and no write breaks it: the
calls on the database move tables between the committed ones and the copies, but make none (`keeps_onTable`,
`All.finish`).  A database with such tables goes with itself, so a transaction's calls lead to databases with such tables
(`links_allBond`).
-/
namespace RowStore

/-- The property of the state holds afterwards if it did before. -/
def Attempt.Keeps {ε σ α : Type} (P : σ → Prop) (m : Attempt ε σ α) : Prop := ∀ s, P s → P (m s).2

namespace Memory

open Attempt

variable {α : Type} {P : String → Table → Prop}

namespace Database

/-- A property of the tables under their names, committed or copied. -/
structure All (P : String → Table → Prop) (db : Database) : Prop where
  committed : ∀ e ∈ db.tables.entries, P e.1 e.2
  copied : ∀ w ∈ db.transactions.entries, ∀ e ∈ w.2.copies.entries, P e.1 e.2.table

namespace All

variable {db : Database} {name : String} {id : Nat}

theorem empty : All P {} := ⟨fun _ h => absurd h List.not_mem_nil, fun _ h => absurd h List.not_mem_nil⟩

theorem get? (h : db.All P) {t : Table} (ht : db.tables.get? name = some t) : P name t := by
  obtain ⟨k, hk, heq⟩ := OrderedMap.exists_mem_of_get? ht
  cases Std.LawfulEqOrd.eq_of_compare heq
  exact h.committed _ hk

theorem workspace (h : db.All P) (id : Nat) : ∀ e ∈ (db.workspace id).copies.entries, P e.1 e.2.table := by
  unfold Database.workspace
  cases hw : db.transactions.get? id with
  | none => exact fun _ he => absurd he List.not_mem_nil
  | some w =>
    obtain ⟨k, hk, -⟩ := OrderedMap.exists_mem_of_get? hw
    exact h.copied _ hk

theorem copy (h : db.All P) {c : Copy} (hc : (db.workspace id).copies.get? name = some c) : P name c.table := by
  obtain ⟨k, hk, heq⟩ := OrderedMap.exists_mem_of_get? hc
  cases Std.LawfulEqOrd.eq_of_compare heq
  exact h.workspace id _ hk

theorem insertTable {t : Table} (h : db.All P) (ht : P name t) :
    All P { db with tables := db.tables.insert name t } := by
  refine ⟨fun e he => ?_, h.copied⟩
  rcases OrderedMap.mem_insert_imp he with ⟨heq, rfl⟩ | he
  · cases Std.LawfulEqOrd.eq_of_compare heq
    exact ht
  · exact h.committed e he

theorem setWorkspace {w : Workspace} (h : db.All P) (hw : ∀ e ∈ w.copies.entries, P e.1 e.2.table) :
    (db.setWorkspace id w).All P := by
  refine ⟨h.committed, fun x hx => ?_⟩
  rcases OrderedMap.mem_insert_imp hx with ⟨-, heq⟩ | hx
  · rw [heq]
    exact hw
  · exact h.copied x hx

theorem ledger (h : db.All P) (l : Ledger) : All P { db with ledger := l } := ⟨h.committed, h.copied⟩

/-! ## Calls on the database -/

theorem createTable (h : db.All P) {schema : TableSchema} (hnew : P schema.name (.new schema)) :
    (Database.createTable schema db).2.All P := by
  unfold Database.createTable
  split
  · exact h
  · exact h.insertTable hnew

theorem dropTable (h : db.All P) (name : String) : (Database.dropTable name db).2.All P := by
  unfold Database.dropTable
  split
  · exact ⟨fun e he => h.committed e (OrderedMap.mem_erase.1 he).1, h.copied⟩
  · exact h

theorem truncateTable (h : db.All P) (hnew : ∀ t, P name t → P name (.new t.schema)) :
    (Database.truncateTable name db).2.All P := by
  unfold Database.truncateTable
  split
  · rename_i t ht
    exact h.insertTable (hnew t (h.get? ht))
  · exact h

theorem begin (h : db.All P) (level : IsolationLevel) : (Database.begin level db).2.All P := by
  have hw : (db.setWorkspace db.nextTransaction {}).All P :=
    h.setWorkspace fun e he => absurd he List.not_mem_nil
  exact ⟨hw.committed, hw.copied⟩

theorem publish {copies : List (String × Copy)} (hcopies : ∀ e ∈ copies, P e.1 e.2.table) :
    ∀ {tables : OrderedMap String Table}, (∀ e ∈ tables.entries, P e.1 e.2) →
      ∀ e ∈ (Database.publish tables ⟨copies⟩).entries, P e.1 e.2 := by
  unfold Database.publish
  induction copies with
  | nil => exact fun h => h
  | cons c copies ih =>
    intro tables h
    dsimp only [List.foldl_cons]
    refine ih (fun e he => hcopies e (List.mem_cons_of_mem _ he)) ?_
    split
    · intro e he
      rcases OrderedMap.mem_insert_imp he with ⟨heq, h2⟩ | he
      · have hc := hcopies c List.mem_cons_self
        rw [← h2, Std.LawfulEqOrd.eq_of_compare heq] at hc
        exact hc
      · exact h e he
    · exact h

theorem finish (h : db.All P) (id : Nat) (commit : Bool) : (Database.finish id commit db).2.All P := by
  unfold Database.finish
  dsimp only
  split
  · exact h
  · refine setWorkspace ⟨?_, h.copied⟩ fun e he => absurd he List.not_mem_nil
    cases commit with
    | false => exact h.committed
    | true => exact publish (h.workspace id) h.committed

end All
end Database

/-! ## Work on a table -/

/-- **Working on a transaction's copy keeps what the work keeps.** -/
theorem Database.keeps_onTable {id : Nat} {name : String} {write : Bool} {work : Action Table α}
    (hwork : Keeps (P name) work) : Keeps (All P) (Database.onTable id name write work) := by
  intro db h
  unfold Database.onTable
  dsimp only
  split
  · exact h
  split
  · exact h
  · rename_i copy hcopy
    have hP : P name copy.table := by
      rcases Option.or_eq_some_iff.1 hcopy with hc | ⟨-, hc⟩
      · exact h.copy hc
      · obtain ⟨t, ht, rfl⟩ := Option.map_eq_some_iff.1 hc
        exact h.get? ht
    refine h.setWorkspace fun e he => ?_
    rcases OrderedMap.mem_insert_imp he with ⟨heq, h2⟩ | he
    · cases Std.LawfulEqOrd.eq_of_compare heq
      rw [h2]
      exact hwork _ hP
    · exact h.workspace id e he

/-! ## A transaction's calls -/

/-- One database next to itself, as long as a property holds of all its tables.  The writes that are meant are those that
keep it. -/
def allBond (P : String → Table → Prop) (name : String) : Bond :=
  .keeping (Database.All P) True fun _ work => Keeps (P name) work

theorem links_allBond (P : String → Table → Prop) (id : Nat) (name : String) : (allBond P name).Links id id name :=
  Bond.links_keeping (fun _ _ hwork db h => ⟨fun _ _ => True.intro, Database.keeps_onTable hwork db h⟩)
    (fun _ hlooks t ht => (hlooks t).symm ▸ ht)
    (fun _ _ h _ hcopies => h.setWorkspace (hcopies ▸ h.workspace id)) fun _ l h => h.ledger l

end Memory
end RowStore

import RowStore.Memory.Cursor
import RowStore.Proofs.Ends
import RowStore.Proofs.MapLaws

/-!
# What a transaction sees of a table

An active transaction sees under a name its own copy of the table, or the committed table if it has not touched it yet
(`Database.Sees`).  Any work on the table leaves it with a copy (`Database.Has`), and that is the work's result
(`ends_onTable`).  Logging and counting change nothing of what is seen.
-/
namespace RowStore
namespace Memory
namespace Database

open Attempt

variable {α : Type} {db : Database} {id : Nat} {name : String} {t : Table}

/-- An active transaction sees a table under a name. -/
structure Sees (db : Database) (id : Nat) (name : String) (t : Table) : Prop where
  active : (db.workspace id).state = .active
  seen : (((db.workspace id).copies.get? name).map (·.table)).or (db.tables.get? name) = some t

/-- An active transaction has a copy of a table. -/
structure Has (db : Database) (id : Nat) (name : String) (t : Table) : Prop where
  active : (db.workspace id).state = .active
  copied : ((db.workspace id).copies.get? name).map (·.table) = some t

theorem Has.sees (h : db.Has id name t) : db.Sees id name t := ⟨h.active, by rw [h.copied, Option.some_or]⟩

theorem workspace_setWorkspace (db : Database) (id : Nat) (w : Workspace) : (db.setWorkspace id w).workspace id = w := by
  unfold setWorkspace workspace
  rw [OrderedMap.get?_insert_self]
  rfl

theorem workspace_setWorkspace_of_ne (db : Database) {id other : Nat} (h : other ≠ id) (w : Workspace) :
    (db.setWorkspace id w).workspace other = db.workspace other := by
  unfold setWorkspace workspace
  rw [OrderedMap.get?_insert_of_ne h.symm]

/-! ## What changes nothing -/

theorem Has.ledger (h : db.Has id name t) (l : Ledger) : Has { db with ledger := l } id name t := ⟨h.active, h.copied⟩

/-- Only the state and the copies of a workspace matter. -/
theorem Has.setWorkspace (h : db.Has id name t) {w : Workspace} (hstate : w.state = (db.workspace id).state)
    (hcopies : w.copies = (db.workspace id).copies) : (db.setWorkspace id w).Has id name t := by
  constructor
  · rw [workspace_setWorkspace, hstate]
    exact h.active
  · rw [workspace_setWorkspace, hcopies]
    exact h.copied

theorem Has.record (h : db.Has id name t) (cursor : Nat) (operation : Operation) :
    (record id cursor operation db).Has id name t := h.setWorkspace rfl rfl

theorem Sees.ledger (h : db.Sees id name t) (l : Ledger) : Sees { db with ledger := l } id name t := ⟨h.active, h.seen⟩

theorem Sees.setWorkspace (h : db.Sees id name t) {w : Workspace} (hstate : w.state = (db.workspace id).state)
    (hcopies : w.copies = (db.workspace id).copies) : (db.setWorkspace id w).Sees id name t := by
  constructor
  · rw [workspace_setWorkspace, hstate]
    exact h.active
  · rw [workspace_setWorkspace, hcopies]
    exact h.seen

/-! ## Working on a table -/

/-- The copy that a transaction works on: the one that it has, or a new one of the committed table. -/
def copy? (db : Database) (id : Nat) (name : String) : Option Copy :=
  ((db.workspace id).copies.get? name).or ((db.tables.get? name).map fun table => ⟨table, false⟩)

theorem sees_iff : db.Sees id name t ↔
    (db.workspace id).state = .active ∧ (db.copy? id name).map (·.table) = some t := by
  have htable : (db.copy? id name).map (·.table) =
      (((db.workspace id).copies.get? name).map (·.table)).or (db.tables.get? name) := by
    unfold copy?
    cases (db.workspace id).copies.get? name with
    | some copy => rfl
    | none =>
      cases db.tables.get? name with
      | some table => rfl
      | none => rfl
  rw [htable]
  exact ⟨fun h => ⟨h.active, h.seen⟩, fun h => ⟨h.1, h.2⟩⟩

theorem onTable_of_not_active (h : (db.workspace id).state ≠ .active) (write : Bool) (work : Action Table α) :
    onTable id name write work db = (.error (.engine .transactionClosed), db) := if_pos h

theorem onTable_of_active (h : (db.workspace id).state = .active) (write : Bool) (work : Action Table α) :
    onTable id name write work db =
      match db.copy? id name with
      | none => (.error (.engine .tableNotFound), db)
      | some copy => ((work copy.table).1, db.setWorkspace id { db.workspace id with
          copies := (db.workspace id).copies.insert name ⟨(work copy.table).2, copy.written || write⟩ }) :=
  if_neg fun hne => hne h

/-- **Work on a table that is seen ends as it does on the table, and its result is what is seen from then on.** -/
theorem ends_onTable (h : db.Sees id name t) (write : Bool) (work : Action Table α) :
    Ends (onTable id name write work) db (work t).1 fun db' => db'.Has id name (work t).2 := by
  obtain ⟨hactive, hseen⟩ := sees_iff.1 h
  obtain ⟨copy, hcopy, rfl⟩ := Option.map_eq_some_iff.1 hseen
  refine Ends.of_apply (u := db.setWorkspace id { db.workspace id with
    copies := (db.workspace id).copies.insert name ⟨(work copy.table).2, copy.written || write⟩ }) ?_ ⟨?_, ?_⟩
  · rw [onTable_of_active hactive, hcopy]
  · rw [workspace_setWorkspace]
    exact h.active
  · rw [workspace_setWorkspace, OrderedMap.get?_insert_self]
    rfl

end Database
end Memory
end RowStore

import RowStore.Proofs.CursorSteps

/-!
# Handles that have been released

A tuple that is disposed of and a cursor that is closed refuse all further work, and nothing comes of it (`SpentTuple`,
`SpentCursor`).  Nor does anything come of a cursor that cannot be opened.
-/
namespace RowStore

open Attempt

namespace Memory

variable {α : Type}

/-! ## Tuples -/

/-- **A tuple that is disposed of refuses everything**, and nothing changes; to let go of it releases nothing. -/
structure SpentTuple (tuple : Tuple) : Prop where
  values : tuple.values = .error (.misuse .tupleDisposed)
  readBytes : ∀ ordinal, tuple.readBytes ordinal = .error (.misuse .tupleDisposed)
  readString : ∀ ordinal, tuple.readString ordinal = .error (.misuse .tupleDisposed)
  readInt : ∀ ordinal length signed, tuple.readInt ordinal length signed = .error (.misuse .tupleDisposed)
  setValues : ∀ cells (db : Database),
    Tuple.setValues cells (tuple, db) = (.error (.misuse .tupleDisposed), (tuple, db))
  clear : ∀ db : Database, Tuple.clear (tuple, db) = (.error (.misuse .tupleDisposed), (tuple, db))
  dispose : ∀ db, Tuple.dispose engine.tupleReleased (tuple, db) = (.error (.misuse .tupleDisposed), (tuple, db))
  letGo : ∀ db, tuple.letGo engine.tupleReleased db = db

theorem slot_of_disposed {tuple : Tuple} (h : tuple.disposed = true) (ordinal : Nat) :
    tuple.slot ordinal = .error (.misuse .tupleDisposed) := by
  unfold Tuple.slot
  rw [Tuple.checkLive_of_disposed h]
  rfl

theorem spent_of_disposed {tuple : Tuple} (h : tuple.disposed = true) : SpentTuple tuple where
  values := by
    unfold Tuple.values
    rw [Tuple.checkLive_of_disposed h]
    rfl
  readBytes ordinal := by
    unfold Tuple.readBytes
    rw [slot_of_disposed h]
    rfl
  readString ordinal := by
    unfold Tuple.readString
    rw [slot_of_disposed h]
    rfl
  readInt ordinal length signed := by
    unfold Tuple.readInt
    rw [slot_of_disposed h]
    rfl
  setValues cells db := (Tuple.setValues_apply cells tuple db).trans (if_pos h)
  clear db := (Tuple.setValues_apply [] tuple db).trans (if_pos h)
  dispose db := (Tuple.dispose_apply _ tuple db).trans (if_pos h)
  letGo _ := if_pos h

/-! ## Cursors -/

/-- **A cursor that is closed refuses everything but to be closed again**, and nothing changes; to let go of it releases
nothing. -/
structure SpentCursor (c : Cursor) : Prop where
  openIndex : ∀ txn index db, engine.openIndex txn c index db = (.error (.engine .cursorClosed), db)
  setLockMode : ∀ mode db, engine.setLockMode mode (c, db) = (.error (.engine .cursorClosed), (c, db))
  lock : ∀ mode db, engine.lock mode (c, db) = (.error (.engine .cursorClosed), (c, db))
  setClusterAccess : ∀ db, engine.setClusterAccess (c, db) = (.error (.engine .cursorClosed), (c, db))
  searchTuple : ∀ key db, engine.searchTuple key (c, db) = (.error (.engine .cursorClosed), (c, db))
  readTuple : ∀ db, engine.readTuple (c, db) = (.error (.engine .cursorClosed), (c, db))
  search : ∀ tuple mode db, engine.search tuple mode (c, db) = (.error (.engine .cursorClosed), (c, db))
  readRow : ∀ tuple db, engine.readRow (tuple, c, db) = (.error (.engine .cursorClosed), (tuple, c, db))
  insertRow : ∀ cells tuple db,
    engine.insertRow cells (tuple, c, db) = (.error (.engine .cursorClosed), (tuple, c, db))
  updateRow : ∀ cells tuple db,
    engine.updateRow cells (tuple, c, db) = (.error (.engine .cursorClosed), (tuple, c, db))
  deleteRow : ∀ db, engine.deleteRow (c, db) = (.error (.engine .cursorClosed), (c, db))
  advance : ∀ direction db, engine.advance direction (c, db) = (.error (.engine .cursorClosed), (c, db))
  close : ∀ db, engine.close (c, db) = (.ok (), (c, db))
  letGo : ∀ db, engine.letGoCursor c db = db

theorem check_fails {σ β : Type} {r : Except Error β} {e : Error} (h : r = .error e) (f : β → Action σ α) (s : σ) :
    (Attempt.ofExcept r >>= f) s = (.error e, s) := by
  subst h
  rfl

theorem readRow_of_unchecked {c : Cursor} {e : Error} (h : c.checkOpen = .error e) (tuple : Tuple) (db : Database) :
    engine.readRow (tuple, c, db) = (.error e, (tuple, c, db)) := by
  have hends : Ends Cursor.readRow (tuple, c, db) (.error e) fun s => s.1 = tuple ∧ s.2 = (c, db) := by
    refine .bind_held (.bind_error (.below (Q := (· = (c, db))) (.of_apply ?_ rfl)))
    exact check_fails h _ (c, db)
  obtain ⟨⟨tuple', here⟩, hread, rfl, rfl⟩ := hends.apply
  exact hread

section

variable {c : Cursor} (h : c.closed = true)
include h

theorem checkOpen_of_closed : c.checkOpen = .error (.engine .cursorClosed) := if_pos h

theorem checkWritable_of_closed : c.checkWritable = .error (.engine .cursorClosed) := by
  unfold Cursor.checkWritable
  rw [checkOpen_of_closed h]
  rfl

theorem release_of_closed (db : Database) : Cursor.release (c, db) = (c, db) := if_pos h

theorem spent_of_closed : SpentCursor c where
  openIndex _ _ db := check_fails (checkOpen_of_closed h) _ db
  setLockMode _ db := check_fails (checkOpen_of_closed h) _ (c, db)
  lock _ db := check_fails (checkOpen_of_closed h) _ (c, db)
  setClusterAccess db := check_fails (checkOpen_of_closed h) _ (c, db)
  searchTuple _ db := check_fails (checkOpen_of_closed h) _ (c, db)
  readTuple db := check_fails (checkOpen_of_closed h) _ (c, db)
  search _ _ db := check_fails (checkOpen_of_closed h) _ (c, db)
  readRow tuple db := readRow_of_unchecked (checkOpen_of_closed h) tuple db
  insertRow _ tuple db := check_fails (checkWritable_of_closed h) _ (tuple, c, db)
  updateRow _ tuple db := check_fails (checkWritable_of_closed h) _ (tuple, c, db)
  deleteRow db := check_fails (checkWritable_of_closed h) _ (c, db)
  advance _ db := check_fails (checkOpen_of_closed h) _ (c, db)
  close db := congrArg (Prod.mk _) (release_of_closed h db)
  letGo db := congrArg Prod.snd (release_of_closed h db)

end

/-! ## Opening -/

/-- A table that is looked for in vain is no reason to change anything. -/
theorem look_fails {id : Nat} {name : String} {db db' : Database} {e : Error}
    (h : Database.onTable id name false (pure () : Action Table Unit) db = (.error e, db')) : db' = db := by
  by_cases hactive : (db.workspace id).state = .active
  · rw [Database.onTable_of_active hactive] at h
    cases hcopy : db.copy? id name with
    | none =>
      rw [hcopy] at h
      cases h
      rfl
    | some copy =>
      rw [hcopy] at h
      cases h
  · rw [Database.onTable_of_not_active hactive] at h
    cases h
    rfl

theorem create_fails {id : Nat} {schema : TableSchema} {index : Option Index} {db db' : Database} {e : Error}
    (h : Cursor.create id schema index db = (.error e, db')) : db' = db := by
  unfold Cursor.create at h
  rw [bind_apply] at h
  rcases honTable : Database.onTable id schema.name false (pure () : Action Table Unit) db with ⟨e' | _, db''⟩ <;>
    rw [honTable] at h
  · cases h
    exact look_fails honTable
  · cases h

/-- **A cursor that cannot be opened leaves the database as it was.** -/
theorem openTable_fails {txn : Transaction} {schema : TableSchema} {db db' : Database} {e : Error}
    (h : engine.openTable txn schema db = (.error e, db')) : db' = db := create_fails h

theorem openIndex_fails {txn : Transaction} {c : Cursor} {index : Index} {db db' : Database} {e : Error}
    (h : engine.openIndex txn c index db = (.error e, db')) : db' = db := by
  unfold engine Cursor.createOnIndex at h
  dsimp only at h
  cases hcheck : c.checkOpen with
  | error e' =>
    rw [hcheck] at h
    cases h
    rfl
  | ok _ =>
    rw [hcheck] at h
    cases hindex : c.schema.secondary? index.name with
    | none =>
      rw [hindex] at h
      cases h
      rfl
    | some found =>
      rw [hindex] at h
      exact create_fails h

end Memory
end RowStore

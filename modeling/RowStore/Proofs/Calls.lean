import RowStore.ByKey
import RowStore.Memory.Cursor
import RowStore.Schema.Declaration

/-!
# Calls

Whatever clients do with a database is a list of calls (`Call`): on the database, on transactions, on cursors, and on
single rows.  A cursor and a tuple are values that a client keeps, so a call comes with any of them, also with one that
no call has ever answered, that was opened with another schema of the same name or on a transaction that is over.
-/
namespace RowStore
namespace Memory

open Attempt

/-- What a client may ask of a database. -/
inductive Call
  | createTable (d : Declaration)
  | dropTable (name : String)
  | truncateTable (name : String)
  | begin (level : IsolationLevel)
  | commit (txn : Transaction)
  | rollback (txn : Transaction)
  | openTable (txn : Transaction) (schema : TableSchema)
  | openIndex (txn : Transaction) (cursor : Cursor) (index : Index)
  | setLockMode (cursor : Cursor) (mode : LockMode)
  | lock (cursor : Cursor) (mode : LockMode)
  | setClusterAccess (cursor : Cursor)
  | searchTuple (cursor : Cursor) (key : Key)
  | readTuple (cursor : Cursor)
  | search (cursor : Cursor) (tuple : Tuple) (mode : SearchMode)
  | readRow (cursor : Cursor) (tuple : Tuple)
  | insertRow (cursor : Cursor) (tuple : Tuple) (cells : List Cell)
  | updateRow (cursor : Cursor) (tuple : Tuple) (cells : List Cell)
  | deleteRow (cursor : Cursor)
  | advance (cursor : Cursor) (direction : Direction)
  | closeCursor (cursor : Cursor)
  | letGoCursor (cursor : Cursor)
  | disposeTuple (tuple : Tuple)
  | load (txn : Transaction) (schema : TableSchema) (key : Row)
  | insert (txn : Transaction) (schema : TableSchema) (row : Row)
  | update (txn : Transaction) (schema : TableSchema) (row : Row)
  | insertOrUpdate (txn : Transaction) (schema : TableSchema) (row : Row)
  | delete (txn : Transaction) (schema : TableSchema) (key : Row)

namespace Call

/-- What becomes of the database. -/
def effect : Call → Database → Database
  | createTable d, db =>
    match d.build with
    | .ok schema => quietly (Database.createTable schema) db
    | .error _ => db
  | dropTable name, db => quietly (Database.dropTable name) db
  | truncateTable name, db => quietly (Database.truncateTable name) db
  | begin level, db => quietly (engine.begin level) db
  | commit txn, db => quietly (engine.commit txn) db
  | rollback txn, db => quietly (engine.rollback txn) db
  | openTable txn schema, db => quietly (engine.openTable txn schema) db
  | openIndex txn cursor index, db => quietly (engine.openIndex txn cursor index) db
  | setLockMode cursor mode, db => (quietly (engine.setLockMode mode) (cursor, db)).2
  | lock cursor mode, db => (quietly (engine.lock mode) (cursor, db)).2
  | setClusterAccess cursor, db => (quietly engine.setClusterAccess (cursor, db)).2
  | searchTuple cursor key, db => (quietly (engine.searchTuple key) (cursor, db)).2
  | readTuple cursor, db => (quietly engine.readTuple (cursor, db)).2
  | search cursor tuple mode, db => (quietly (engine.search tuple mode) (cursor, db)).2
  | readRow cursor tuple, db => (quietly engine.readRow (tuple, cursor, db)).2.2
  | insertRow cursor tuple cells, db => (quietly (engine.insertRow cells) (tuple, cursor, db)).2.2
  | updateRow cursor tuple cells, db => (quietly (engine.updateRow cells) (tuple, cursor, db)).2.2
  | deleteRow cursor, db => (quietly engine.deleteRow (cursor, db)).2
  | advance cursor direction, db => (quietly (engine.advance direction) (cursor, db)).2
  | closeCursor cursor, db => (quietly engine.close (cursor, db)).2
  | letGoCursor cursor, db => engine.letGoCursor cursor db
  | disposeTuple tuple, db => (quietly (Tuple.dispose engine.tupleReleased) (tuple, db)).2
  | load txn schema key, db => quietly (ByKey.load engine txn schema key) db
  | insert txn schema row, db => quietly (ByKey.insert engine txn schema row) db
  | update txn schema row, db => quietly (ByKey.update engine txn schema row) db
  | insertOrUpdate txn schema row, db => quietly (ByKey.insertOrUpdate engine txn schema row) db
  | delete txn schema key, db => quietly (ByKey.delete engine txn schema key) db

end Call

/-- The database after some calls, from the empty one on. -/
def Database.run (calls : List Call) : Database := calls.foldl (fun db call => call.effect db) {}

end Memory
end RowStore

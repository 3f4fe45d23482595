import RowStore.Proofs.Calls
import RowStore.Proofs.CursorMirrors

/-!
# What calls answer

A call answers a result, and what has become of the cursor and the tuple that it came with (`Call.perform`).  All calls
but those on the database itself belong to a transaction; they end it, or work on one of its tables (`Call.cases`).  A
call that works on a table, made with other numbers of transactions and cursors on a linked database, answers alike, and
the databases stay linked (`Links.perform`).  So a property of one database that the links keep is kept by every call on
the table (`keeps_effect`).
-/
namespace RowStore
namespace Memory

open Attempt

variable {α : Type}

/-- What a call returns. -/
inductive Returned
  | nothing
  | flag (b : Bool)
  | transaction (txn : Transaction)
  | cursor (cursor : Cursor)
  | tuple (tuple : Tuple)
  | row (row : Option Row)

/-- The result of a call, and what has become of its cursor and its tuple. -/
structure Answer where
  result : Except Error Returned
  cursor : Option Cursor := none
  tuple : Option Tuple := none

namespace Call

/-! ## Calls with their answers -/

variable (give : α → Returned)

def plain (m : Action Database α) (db : Database) : Answer × Database :=
  ({ result := (m db).1.map give }, (m db).2)

def onCursor (cursor : Cursor) (m : Action (Cursor × Database) α) (db : Database) : Answer × Database :=
  ({ result := (m (cursor, db)).1.map give, cursor := some (m (cursor, db)).2.1 }, (m (cursor, db)).2.2)

def onTuple (tuple : Tuple) (cursor : Cursor) (m : Action (Tuple × Cursor × Database) α) (db : Database) :
    Answer × Database :=
  ({ result := (m (tuple, cursor, db)).1.map give, cursor := some (m (tuple, cursor, db)).2.2.1,
     tuple := some (m (tuple, cursor, db)).2.1 }, (m (tuple, cursor, db)).2.2.2)

/-- Makes a call. -/
def perform : Call → Database → Answer × Database
  | createTable d => plain (fun _ => .nothing) (Attempt.ofExcept d.build >>= Database.createTable)
  | dropTable name => plain (fun _ => .nothing) (Database.dropTable name)
  | truncateTable name => plain (fun _ => .nothing) (Database.truncateTable name)
  | begin level => plain .transaction (engine.begin level)
  | commit txn => plain (fun _ => .nothing) (engine.commit txn)
  | rollback txn => plain (fun _ => .nothing) (engine.rollback txn)
  | openTable txn schema => plain .cursor (engine.openTable txn schema)
  | openIndex txn cursor index => plain .cursor (engine.openIndex txn cursor index)
  | setLockMode cursor mode => onCursor (fun _ => .nothing) cursor (engine.setLockMode mode)
  | lock cursor mode => onCursor (fun _ => .nothing) cursor (engine.lock mode)
  | setClusterAccess cursor => onCursor (fun _ => .nothing) cursor engine.setClusterAccess
  | searchTuple cursor key => onCursor .tuple cursor (engine.searchTuple key)
  | readTuple cursor => onCursor .tuple cursor engine.readTuple
  | search cursor tuple mode => onCursor .flag cursor (engine.search tuple mode)
  | readRow cursor tuple => onTuple (fun _ => .nothing) tuple cursor engine.readRow
  | insertRow cursor tuple cells => onTuple (fun _ => .nothing) tuple cursor (engine.insertRow cells)
  | updateRow cursor tuple cells => onTuple (fun _ => .nothing) tuple cursor (engine.updateRow cells)
  | deleteRow cursor => onCursor (fun _ => .nothing) cursor engine.deleteRow
  | advance cursor direction => onCursor (fun _ => .nothing) cursor (engine.advance direction)
  | closeCursor cursor => onCursor (fun _ => .nothing) cursor engine.close
  | letGoCursor cursor => plain (fun _ => .nothing) (Attempt.modify (engine.letGoCursor cursor))
  | disposeTuple tuple => fun db =>
    ({ result := (Tuple.dispose engine.tupleReleased (tuple, db)).1.map fun _ => .nothing,
       tuple := some (Tuple.dispose engine.tupleReleased (tuple, db)).2.1 },
      (Tuple.dispose engine.tupleReleased (tuple, db)).2.2)
  | load txn schema key => plain .row (ByKey.load engine txn schema key)
  | insert txn schema row => plain (fun _ => .nothing) (ByKey.insert engine txn schema row)
  | update txn schema row => plain .flag (ByKey.update engine txn schema row)
  | insertOrUpdate txn schema row => plain .flag (ByKey.insertOrUpdate engine txn schema row)
  | delete txn schema key => plain .flag (ByKey.delete engine txn schema key)

theorem perform_snd (call : Call) (db : Database) : (call.perform db).2 = call.effect db := by
  cases call with
  | createTable d =>
    show ((Attempt.ofExcept d.build >>= Database.createTable) db).2 = _
    rw [bind_apply]
    dsimp only [effect, Attempt.ofExcept]
    cases d.build <;> rfl
  | _ => rfl

/-! ## Calls one after the other -/

/-- The answers to those of some calls that are as told. -/
def answers (p : Call → Bool) : List Call → Database → List Answer
  | [], _ => []
  | call :: calls, db =>
    let rest := answers p calls (call.effect db)
    if p call then (call.perform db).1 :: rest else rest

variable {p : Call → Bool} {call : Call}

theorem answers_cons_of_pos (h : p call = true) (calls : List Call) (db : Database) :
    answers p (call :: calls) db = (call.perform db).1 :: answers p calls (call.effect db) := if_pos h

theorem answers_cons_of_neg (h : ¬p call = true) (calls : List Call) (db : Database) :
    answers p (call :: calls) db = answers p calls (call.effect db) := if_neg h

/-! ## Whose calls they are -/

/-- The transaction of a call. -/
def owner? : Call → Option Nat
  | createTable _ | dropTable _ | truncateTable _ | begin _ | disposeTuple _ => none
  | commit txn | rollback txn | openTable txn _ | openIndex txn _ _ | load txn _ _ | insert txn _ _ | update txn _ _
  | insertOrUpdate txn _ _ | delete txn _ _ => some txn.id
  | setLockMode cursor _ | lock cursor _ | setClusterAccess cursor | searchTuple cursor _ | readTuple cursor
  | search cursor _ _ | readRow cursor _ | insertRow cursor _ _ | updateRow cursor _ _ | deleteRow cursor
  | advance cursor _ | closeCursor cursor | letGoCursor cursor => some cursor.transaction

/-- The table of a call of a transaction. -/
def table? : Call → Option String
  | createTable _ | dropTable _ | truncateTable _ | begin _ | disposeTuple _ | commit _ | rollback _ => none
  | openTable _ schema | load _ schema _ | insert _ schema _ | update _ schema _ | insertOrUpdate _ schema _
  | delete _ schema _ => some schema.name
  | openIndex _ cursor _ | setLockMode cursor _ | lock cursor _ | setClusterAccess cursor | searchTuple cursor _
  | readTuple cursor | search cursor _ _ | readRow cursor _ | insertRow cursor _ _ | updateRow cursor _ _
  | deleteRow cursor | advance cursor _ | closeCursor cursor | letGoCursor cursor => some cursor.schema.name

/-- A call that works on a table for a transaction. -/
def On (id : Nat) (name : String) (call : Call) : Prop := call.owner? = some id ∧ call.table? = some name

instance (id : Nat) (name : String) : DecidablePred (On id name) := fun _ => inferInstanceAs (Decidable (_ ∧ _))

/-- The end of a transaction. -/
def Ends (id : Nat) (call : Call) : Prop := call.owner? = some id ∧ call.table? = none

instance (id : Nat) : DecidablePred (Ends id) := fun _ => inferInstanceAs (Decidable (_ ∧ _))

/-- A call that may write to a table. -/
def MayWrite : Call → Prop
  | insertRow .. | updateRow .. | deleteRow _ | insert .. | update .. | insertOrUpdate .. | delete .. => True
  | _ => False

/-- **Every call is on the database, ends a transaction, or works on a table.** -/
theorem cases (call : Call) :
    call.owner? = none ∨ ∃ id, call.owner? = some id ∧ (call.Ends id ∨ ∃ name, call.On id name) := by
  cases hid : call.owner? with
  | none => exact .inl rfl
  | some id =>
    refine .inr ⟨id, rfl, ?_⟩
    cases hname : call.table? with
    | none => exact .inl ⟨hid, hname⟩
    | some name => exact .inr ⟨name, hid, hname⟩

/-- What a call writes is meant. -/
def Means (B : Bond) : Call → Prop
  | insertRow _ _ cells => B.writes.insert cells
  | updateRow _ _ cells => B.writes.replace cells
  | insert _ schema row => ∀ payload, schema.encodeRow row = .ok payload → B.writes.insert payload
  | update _ schema row => ∀ payload, schema.encodeRow row = .ok payload → B.writes.replace payload
  | insertOrUpdate _ schema row => ∀ payload, schema.encodeRow row = .ok payload →
    B.writes.insert payload ∧ B.writes.replace payload
  | deleteRow _ | delete .. => B.writes.remove
  | _ => True

theorem means_of_forall {B : Bond} {call : Call}
    (h : call.MayWrite → ∀ {α : Type} (write : Bool) (work : Action Table α), B.meant write work) : call.Means B := by
  cases call with
  | insertRow => exact h True.intro _ _
  | updateRow => exact fun _ => h True.intro _ _
  | insert => exact fun _ _ => h True.intro _ _
  | update => exact fun _ _ _ => h True.intro _ _
  | insertOrUpdate => exact fun _ _ => ⟨h True.intro _ _, fun _ => h True.intro _ _⟩
  | deleteRow | delete => exact fun _ => h True.intro _ _
  | _ => exact True.intro

end Call

/-! ## Other numbers -/

variable (f g : Nat → Nat)

/-- Another number for a transaction. -/
def Transaction.renumber (txn : Transaction) : Transaction := { txn with id := f txn.id }

/-- Other numbers for a cursor and its transaction. -/
def Cursor.renumber (c : Cursor) : Cursor := { c with id := g c.id, transaction := f c.transaction }

def Returned.renumber : Returned → Returned
  | transaction txn => transaction (txn.renumber f)
  | cursor c => cursor (c.renumber f g)
  | r => r

def Answer.renumber (a : Answer) : Answer :=
  { a with result := a.result.map (·.renumber f g), cursor := a.cursor.map (·.renumber f g) }

def Call.renumber : Call → Call
  | commit txn => commit (txn.renumber f)
  | rollback txn => rollback (txn.renumber f)
  | openTable txn schema => openTable (txn.renumber f) schema
  | openIndex txn cursor index => openIndex (txn.renumber f) (cursor.renumber f g) index
  | setLockMode cursor mode => setLockMode (cursor.renumber f g) mode
  | lock cursor mode => lock (cursor.renumber f g) mode
  | setClusterAccess cursor => setClusterAccess (cursor.renumber f g)
  | searchTuple cursor key => searchTuple (cursor.renumber f g) key
  | readTuple cursor => readTuple (cursor.renumber f g)
  | search cursor tuple mode => search (cursor.renumber f g) tuple mode
  | readRow cursor tuple => readRow (cursor.renumber f g) tuple
  | insertRow cursor tuple cells => insertRow (cursor.renumber f g) tuple cells
  | updateRow cursor tuple cells => updateRow (cursor.renumber f g) tuple cells
  | deleteRow cursor => deleteRow (cursor.renumber f g)
  | advance cursor direction => advance (cursor.renumber f g) direction
  | closeCursor cursor => closeCursor (cursor.renumber f g)
  | letGoCursor cursor => letGoCursor (cursor.renumber f g)
  | load txn schema key => load (txn.renumber f) schema key
  | insert txn schema row => insert (txn.renumber f) schema row
  | update txn schema row => update (txn.renumber f) schema row
  | insertOrUpdate txn schema row => insertOrUpdate (txn.renumber f) schema row
  | delete txn schema key => delete (txn.renumber f) schema key
  | call => call

/-- An answer without its numbers. -/
abbrev Answer.anonymous : Answer → Answer := Answer.renumber (fun _ => 0) fun _ => 0

/-- A call without its numbers. -/
abbrev Call.anonymous : Call → Call := Call.renumber (fun _ => 0) fun _ => 0

/-! ## Calls on linked databases -/

namespace Bond

variable {B : Bond} {id id' : Nat} {name : String} {db db' : Database} {A : α → α → Prop} {give : α → Returned}

/-- What is returned for answers that go together is the same but for numbers. -/
def Gives (A : α → α → Prop) (give : α → Returned) : Prop :=
  ∀ a a', A a a' → (give a).renumber (fun _ => 0) (fun _ => 0) = (give a').renumber (fun _ => 0) fun _ => 0

theorem Gives.of_eq (give : α → Returned) (hA : ∀ a a', A a a' → a = a') : Gives A give :=
  fun a a' ha => by rw [hA a a' ha]

theorem gives_cursor :
    Gives (fun c c' => B.Alike id id' name c c' ∧ B.answering) Returned.cursor := by
  rintro c _ ⟨⟨n, -, rfl, -, -⟩, -⟩
  rfl

theorem Gives.result (hgive : Gives A give) : ∀ {r r' : Except Error α}, Agree A r r' →
    (r.map give).map (·.renumber (fun _ => 0) fun _ => 0) = (r'.map give).map (·.renumber (fun _ => 0) fun _ => 0)
  | .ok a, .ok a', h => congrArg Except.ok (hgive a a' h)
  | .error _, .error _, h => congrArg Except.error h

theorem Alike.anonymous_eq {c c' : Cursor} (h : B.Alike id id' name c c') :
    c.renumber (fun _ => 0) (fun _ => 0) = c'.renumber (fun _ => 0) fun _ => 0 := by
  obtain ⟨n, -, rfl, -, -⟩ := h
  rfl

theorem plain_alike (hgive : Gives A give) {m m' : Action Database α} (hm : Mirrors B.states A m m')
    (hs : B.states db db') :
    (Call.plain give m db).1.anonymous = (Call.plain give m' db').1.anonymous ∧
      B.states (Call.plain give m db).2 (Call.plain give m' db').2 := by
  obtain ⟨hr, hs⟩ := hm db db' hs
  refine ⟨?_, hs⟩
  unfold Answer.anonymous Answer.renumber Call.plain
  dsimp only
  rw [hgive.result hr]

theorem onCursor_alike (hgive : Gives A give) {m : Action (Cursor × Database) α}
    (hm : Mirrors (B.here id id' name) A m m) {c c' : Cursor} (hc : B.Alike id id' name c c') (hs : B.states db db') :
    (Call.onCursor give c m db).1.anonymous = (Call.onCursor give c' m db').1.anonymous ∧
      B.states (Call.onCursor give c m db).2 (Call.onCursor give c' m db').2 := by
  obtain ⟨hr, hc, hs⟩ := hm (c, db) (c', db') ⟨hc, hs⟩
  refine ⟨?_, hs⟩
  unfold Answer.anonymous Answer.renumber Call.onCursor
  dsimp only [Option.map]
  rw [hgive.result hr, hc.anonymous_eq]

theorem onTuple_alike (hgive : Gives A give) {m : Action (Tuple × Cursor × Database) α}
    (hm : Mirrors (Both (· = ·) (B.here id id' name)) A m m) (tuple : Tuple) {c c' : Cursor}
    (hc : B.Alike id id' name c c') (hs : B.states db db') :
    (Call.onTuple give tuple c m db).1.anonymous = (Call.onTuple give tuple c' m db').1.anonymous ∧
      B.states (Call.onTuple give tuple c m db).2 (Call.onTuple give tuple c' m db').2 := by
  obtain ⟨hr, htuple, hc, hs⟩ := hm (tuple, c, db) (tuple, c', db') ⟨rfl, hc, hs⟩
  refine ⟨?_, hs⟩
  unfold Answer.anonymous Answer.renumber Call.onTuple
  dsimp only [Option.map]
  rw [hgive.result hr, hc.anonymous_eq, htuple]

variable {f g}

/-- **A call on a table, made with other numbers on a linked database, answers alike.** -/
theorem Links.perform (h : B.Links id id' name) (hf : f id = id') (hg : ∀ n, B.cursors n (g n)) {call : Call}
    (hmeans : call.Means B) (hon : call.On id name) (hs : B.states db db') :
    (call.perform db).1.anonymous = ((call.renumber f g).perform db').1.anonymous ∧
      B.states (call.perform db).2 ((call.renumber f g).perform db').2 := by
  obtain ⟨hid, hname⟩ := hon
  subst hf
  have hcursor : ∀ c : Cursor, some c.transaction = some id → some c.schema.name = some name →
      B.Alike id (f id) name c (c.renumber f g) := by
    rintro c ⟨⟩ ⟨⟩
    exact ⟨g c.id, hg c.id, rfl, rfl, rfl⟩
  have hengine : ∀ (txn : Transaction) (schema : TableSchema), some txn.id = some id → some schema.name = some name →
      engine.Mirrors B.states (B.Alike id (f id) name) B.writes txn (txn.renumber f) schema := by
    rintro txn schema ⟨⟩ ⟨⟩
    exact h.mirrors_engine rfl txn.level txn.level
  have hplain : ∀ {α : Type} (give : α → Returned), Gives (· = ·) give := fun give => .of_eq give fun _ _ heq => heq
  have hanswer : ∀ {α : Type} (give : α → Returned), Gives B.Answer give := fun give => .of_eq give fun _ _ ha => ha.1
  cases call with
  | createTable | dropTable | truncateTable | begin | disposeTuple => cases hid
  | commit | rollback => cases hname
  | openTable txn schema =>
    cases hid
    exact plain_alike gives_cursor (h.create (Option.some.inj hname) none) hs
  | openIndex txn cursor index =>
    cases hid
    exact plain_alike gives_cursor (h.createOnIndex rfl rfl (Option.some.inj hname) index) hs
  | setLockMode cursor mode =>
    exact onCursor_alike (hplain _) (h.setLockMode mode) (hcursor _ hid hname) hs
  | lock cursor mode =>
    exact onCursor_alike (hplain _) (h.lock mode) (hcursor _ hid hname) hs
  | setClusterAccess cursor =>
    exact onCursor_alike (hplain _) setClusterAccess (hcursor _ hid hname) hs
  | searchTuple cursor key =>
    exact onCursor_alike (hplain _) (h.searchTuple key) (hcursor _ hid hname) hs
  | readTuple cursor =>
    exact onCursor_alike (hplain _) h.readTuple (hcursor _ hid hname) hs
  | search cursor tuple mode =>
    exact onCursor_alike (hanswer _) (h.search tuple mode) (hcursor _ hid hname) hs
  | readRow cursor tuple =>
    exact onTuple_alike (hanswer _) h.readRow tuple (hcursor _ hid hname) hs
  | insertRow cursor tuple cells =>
    exact onTuple_alike (hanswer _) (h.insertRow hmeans) tuple (hcursor _ hid hname) hs
  | updateRow cursor tuple cells =>
    exact onTuple_alike (hanswer _) (h.updateRow hmeans) tuple (hcursor _ hid hname) hs
  | deleteRow cursor =>
    exact onCursor_alike (hanswer _) (h.deleteRow hmeans) (hcursor _ hid hname) hs
  | advance cursor direction =>
    exact onCursor_alike (hanswer _) (h.advance direction) (hcursor _ hid hname) hs
  | closeCursor cursor =>
    exact onCursor_alike (hplain _) h.close (hcursor _ hid hname) hs
  | letGoCursor cursor =>
    refine plain_alike (hplain _) (Mirrors.modify fun s s' hs => ?_) hs
    exact (h.release (show B.here id (f id) name (cursor, s) (cursor.renumber f g, s') from
      ⟨hcursor _ hid hname, hs⟩)).2
  | load txn schema key =>
    exact plain_alike (hplain _) ((hengine txn schema hid hname).load key) hs
  | insert txn schema row =>
    exact plain_alike (hplain _) ((hengine txn schema hid hname).insert hmeans) hs
  | update txn schema row =>
    exact plain_alike (hplain _) ((hengine txn schema hid hname).update hmeans) hs
  | insertOrUpdate txn schema row =>
    have hmirrors := (hengine txn schema hid hname).insertOrUpdate (fun payload hpayload => (hmeans payload hpayload).1)
      fun payload hpayload => (hmeans payload hpayload).2
    exact plain_alike (hplain _) hmirrors hs
  | delete txn schema key =>
    exact plain_alike (hplain _) ((hengine txn schema hid hname).delete hmeans key) hs

/-- **What a transaction's calls on a table come down to keeps a property, so the calls keep it.** -/
theorem keeps_effect {P : Database → Prop} {answering : Prop} {meant : ∀ {α : Type}, Bool → Action Table α → Prop}
    (h : (keeping P answering meant).Links id id name) {call : Call} (hmeans : call.Means (keeping P answering meant))
    (hon : call.On id name) (hdb : P db) : P (call.effect db) := by
  obtain ⟨-, -, hkept⟩ := h.perform (f := fun n => n) (g := fun n => n) rfl (fun _ => rfl) hmeans hon ⟨rfl, hdb⟩
  rw [Call.perform_snd] at hkept
  exact hkept

end Bond
end Memory
end RowStore

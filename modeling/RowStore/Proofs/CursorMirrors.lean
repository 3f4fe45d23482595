import RowStore.Memory.Cursor
import RowStore.Proofs.EngineMirrors
import RowStore.Proofs.TupleSteps

/-!
# Two databases side by side

A transaction's calls on a table reach the database in five ways: they work on the transaction's copy of the table, read
and count up the number of its next cursor, log what was done, and count tuples and cursors.  If these five mirror each
other along a relation of databases (`Bond.Links`), then all calls of the engine on the table do
(`Links.mirrors_engine`).  The two transactions need not have the same number, and neither need their cursors.

The relation may be that of one database with itself and a property of it (`Bond.keeping`).  Then what is shown is that
the calls keep the property.
-/
namespace RowStore
namespace Memory

open Attempt

/-- What two databases, and two runs of a transaction on them, have in common. -/
structure Bond where
  states : Database → Database → Prop
  /-- Of the numbers of cursors. -/
  cursors : Nat → Nat → Prop
  /-- Work on the table may answer at all. -/
  answering : Prop := True
  /-- The work on the table that is meant, by whether it writes. -/
  meant : ∀ {α : Type}, Bool → Action Table α → Prop := fun _ _ => True

namespace Bond

variable {α : Type} {B : Bond} {id id' : Nat} {name : String}

/-- Two cursors on tables of a name that differ in their numbers only. -/
def Alike (B : Bond) (id id' : Nat) (name : String) (c c' : Cursor) : Prop :=
  ∃ n, B.cursors c.id n ∧ c' = { c with id := n, transaction := id' } ∧ c.transaction = id ∧ c.schema.name = name

/-- Related databases with such cursors. -/
abbrev here (B : Bond) (id id' : Nat) (name : String) : Cursor × Database → Cursor × Database → Prop :=
  Both (B.Alike id id' name) B.states

/-- Equal answers, if any may be given. -/
def Answer (B : Bond) (a a' : α) : Prop := a = a' ∧ B.answering

/-- The writes that are meant. -/
def writes (B : Bond) : Writes where
  insert cells := B.meant true (Table.insert cells)
  replace cells := ∀ key, B.meant true (Table.replace key cells)
  remove := ∀ key, B.meant true (Table.remove key)

/-- **What a transaction's calls on a table come down to**, for two transactions. -/
structure Links (B : Bond) (id id' : Nat) (name : String) : Prop where
  onTable : ∀ {α : Type} (write : Bool) (work : Action Table α), B.meant write work →
    Mirrors B.states B.Answer (Database.onTable id name write work) (Database.onTable id' name write work)
  looks : ∀ {α : Type} (work : Action Table α), (∀ t, (work t).2 = t) → B.meant false work
  next : ∀ db db', B.states db db' → B.cursors (db.workspace id).nextCursor (db'.workspace id').nextCursor
  count : ∀ db db', B.states db db' →
    B.states (db.setWorkspace id { db.workspace id with nextCursor := (db.workspace id).nextCursor + 1 })
      (db'.setWorkspace id' { db'.workspace id' with nextCursor := (db'.workspace id').nextCursor + 1 })
  record : ∀ {n n' : Nat} (operation : Operation) (db db' : Database), B.cursors n n' → B.states db db' →
    B.states (Database.record id n operation db) (Database.record id' n' operation db')
  ledger : ∀ (f : Ledger → Ledger) (db db' : Database), B.states db db' →
    B.states { db with ledger := f db.ledger } { db' with ledger := f db'.ledger }

/-! ## A property of one database -/

/-- One database next to itself, as long as it has a property. -/
def keeping (P : Database → Prop) (answering : Prop := True)
    (meant : ∀ {α : Type}, Bool → Action Table α → Prop := fun _ _ => True) : Bond where
  states db db' := db' = db ∧ P db
  cursors := (· = ·)
  answering
  meant

/-- **A property that is kept by work on the table, by the transaction's own log and count, and by the ledger**, is kept by
all that the transaction's calls come down to. -/
theorem links_keeping {P : Database → Prop} {answering : Prop}
    {meant : ∀ {α : Type}, Bool → Action Table α → Prop}
    (honTable : ∀ {α : Type} (write : Bool) (work : Action Table α), meant write work → ∀ db, P db →
      (∀ a, (Database.onTable id name write work db).1 = .ok a → answering) ∧
        P (Database.onTable id name write work db).2)
    (hlooks : ∀ {α : Type} (work : Action Table α), (∀ t, (work t).2 = t) → meant false work)
    (hown : ∀ db w, P db → w.state = (db.workspace id).state → w.copies = (db.workspace id).copies →
      P (db.setWorkspace id w))
    (hledger : ∀ (db : Database) (l : Ledger), P db → P { db with ledger := l }) :
    (keeping P answering meant).Links id id name where
  onTable write work hwork := by
    rintro _ db ⟨rfl, h⟩
    obtain ⟨hanswer, hkept⟩ := honTable write work hwork db h
    refine ⟨?_, rfl, hkept⟩
    cases hr : (Database.onTable id name write work db).1 with
    | error e => exact rfl
    | ok a => exact ⟨rfl, hanswer a hr⟩
  looks := hlooks
  next := by
    rintro _ db ⟨rfl, -⟩
    rfl
  count := by
    rintro _ db ⟨rfl, h⟩
    exact ⟨rfl, hown db _ h rfl rfl⟩
  record operation := by
    rintro _ db rfl ⟨rfl, h⟩
    exact ⟨rfl, hown db _ h rfl rfl⟩
  ledger f := by
    rintro _ db ⟨rfl, h⟩
    exact ⟨rfl, hledger db _ h⟩

namespace Links

variable (h : B.Links id id' name)
include h

/-! ## Parts of a call -/

omit h in
theorem update {f : Cursor → Cursor} (hf : ∀ c c', B.Alike id id' name c c' → B.Alike id id' name (f c) (f c')) :
    Mirrors (B.here id id' name) (· = ·) (Cursor.update f) (Cursor.update f) :=
  Mirrors.modify fun _ _ hs => ⟨hf _ _ hs.1, hs.2⟩

theorem log (operation : Operation) :
    Mirrors (B.here id id' name) (· = ·) (Cursor.log operation) (Cursor.log operation) := by
  refine Mirrors.modify ?_
  rintro ⟨c, db⟩ ⟨_, db'⟩ ⟨⟨n, hn, rfl, rfl, rfl⟩, hs⟩
  exact ⟨⟨n, hn, rfl, rfl, rfl⟩, h.record operation db db' hn hs⟩

theorem onCopy {write : Bool} {work : Action Table α} (hmeant : B.meant write work) :
    Mirrors (B.here id id' name) B.Answer (Cursor.onTable write work) (Cursor.onTable write work) := by
  refine Mirrors.held.bind ?_
  rintro c _ ⟨n, hn, rfl, rfl, rfl⟩
  exact (h.onTable write work hmeant).below

theorem withEntries (look : Table → Cursor.Entries → Except Error α) :
    Mirrors (B.here id id' name) B.Answer (Cursor.withEntries look) (Cursor.withEntries look) := by
  refine Mirrors.held.bind ?_
  rintro c _ ⟨n, hn, rfl, -, -⟩
  refine h.onCopy (h.looks _ fun t => ?_)
  show ((Attempt.ofExcept (Cursor.entriesOf t c.index) >>= fun entries => Attempt.ofExcept (look t entries)) t).2 = t
  rw [bind_apply]
  cases Cursor.entriesOf t c.index <;> rfl

theorem makeTuple (tuple : Tuple) :
    Mirrors (B.here id id' name) (· = ·) (Cursor.makeTuple tuple) (Cursor.makeTuple tuple) :=
  (Mirrors.modify fun _ _ hs => ⟨hs.1, h.ledger Ledger.tupleCreated _ _ hs.2⟩).bind_eq fun _ => Mirrors.pure rfl

omit h in
/-- What is staged is the row. -/
theorem stage (row : List Cell) : Mirrors (Both (· = ·) (B.here id id' name)) (fun staged staged' =>
    staged = row ∧ staged' = row) (Cursor.stage row) (Cursor.stage row) := by
  rintro ⟨tuple, s⟩ ⟨_, s'⟩ ⟨rfl, hs⟩
  rw [Cursor.stage_apply, Cursor.stage_apply]
  split
  · exact ⟨rfl, rfl, hs⟩
  · exact ⟨⟨rfl, rfl⟩, rfl, hs⟩

/-! ## Calls -/

theorem create {schema : TableSchema} (hname : schema.name = name) (index : Option Index) :
    Mirrors B.states (fun c c' => B.Alike id id' name c c' ∧ B.answering) (Cursor.create id schema index)
      (Cursor.create id' schema index) := by
  subst hname
  refine (h.onTable false _ (h.looks _ fun _ => rfl)).bind fun _ _ hanswer => ?_
  rintro db db' hs
  have hn := h.next db db' hs
  refine ⟨⟨⟨_, hn, rfl, rfl, rfl⟩, hanswer.2⟩, ?_⟩
  exact h.record _ _ _ hn (h.ledger Ledger.cursorOpened _ _ (h.count db db' hs))

theorem createOnIndex {cursor cursor' : Cursor} (hclosed : cursor'.closed = cursor.closed)
    (hschema : cursor'.schema = cursor.schema) (hname : cursor.schema.name = name) (index : Index) :
    Mirrors B.states (fun c c' => B.Alike id id' name c c' ∧ B.answering) (Cursor.createOnIndex id cursor index)
      (Cursor.createOnIndex id' cursor' index) := by
  unfold Cursor.createOnIndex Cursor.checkOpen
  rw [hclosed, hschema]
  refine Mirrors.ofExcept_bind fun _ _ => ?_
  split
  · exact h.create hname _
  · exact Mirrors.fail _

theorem setLockMode (mode : LockMode) :
    Mirrors (B.here id id' name) (· = ·) (Cursor.setLockMode mode) (Cursor.setLockMode mode) := by
  refine Mirrors.held.bind ?_
  rintro c _ ⟨n, hn, rfl, -, -⟩
  refine Mirrors.ofExcept_bind fun _ _ => (update ?_).bind_eq fun _ => h.log _
  rintro c _ ⟨n, hn, rfl, htxn, hname⟩
  exact ⟨n, hn, rfl, htxn, hname⟩

theorem lock (mode : LockMode) : Mirrors (B.here id id' name) (· = ·) (Cursor.lock mode) (Cursor.lock mode) := by
  have hexclusive : Mirrors (B.here id id' name) (· = ·) (Cursor.update fun c => { c with exclusive := true })
      (Cursor.update fun c => { c with exclusive := true }) := by
    refine update ?_
    rintro c _ ⟨n, hn, rfl, htxn, hname⟩
    exact ⟨n, hn, rfl, htxn, hname⟩
  refine Mirrors.held.bind ?_
  rintro c _ ⟨n, hn, rfl, -, -⟩
  refine Mirrors.ofExcept_bind fun _ _ => ?_
  dsimp only
  split
  · split
    · exact Mirrors.fail_bind
    · exact hexclusive.bind_eq fun _ => h.log _
  · exact h.log _

omit h in
theorem setClusterAccess :
    Mirrors (B.here id id' name) (· = ·) Cursor.setClusterAccess Cursor.setClusterAccess := by
  refine Mirrors.held.bind ?_
  rintro c _ ⟨n, hn, rfl, -, -⟩
  refine Mirrors.ofExcept_bind fun _ _ => update ?_
  rintro c _ ⟨n, hn, rfl, htxn, hname⟩
  exact ⟨n, hn, rfl, htxn, hname⟩

theorem searchTuple (key : Key) :
    Mirrors (B.here id id' name) (· = ·) (Cursor.searchTuple key) (Cursor.searchTuple key) := by
  refine Mirrors.held.bind ?_
  rintro c _ ⟨n, hn, rfl, -, -⟩
  refine Mirrors.ofExcept_bind fun _ _ => ?_
  show Mirrors _ _ (if c.keyColumns.length < key.length then _ else _) (if c.keyColumns.length < key.length then _ else _)
  split
  · exact Mirrors.fail_bind
  · exact h.makeTuple _

theorem readTuple : Mirrors (B.here id id' name) (· = ·) Cursor.readTuple Cursor.readTuple := by
  refine Mirrors.held.bind ?_
  rintro c _ ⟨n, hn, rfl, -, -⟩
  exact Mirrors.ofExcept_bind fun _ _ => h.makeTuple _

theorem search (tuple : Tuple) (mode : SearchMode) :
    Mirrors (B.here id id' name) B.Answer (Cursor.search tuple mode) (Cursor.search tuple mode) := by
  refine Mirrors.held.bind ?_
  rintro c _ ⟨n, hn, rfl, -, -⟩
  refine Mirrors.ofExcept_bind fun _ _ => Mirrors.ofExcept_bind fun key _ => ?_
  refine (h.withEntries _).bind fun position _ hposition => ?_
  obtain ⟨rfl, hanswering⟩ := hposition
  refine (update ?_).bind_eq fun _ => (h.log _).bind_eq fun _ => Mirrors.pure ⟨rfl, hanswering⟩
  rintro c _ ⟨n, hn, rfl, htxn, hname⟩
  exact ⟨n, hn, rfl, htxn, hname⟩

theorem readRow : Mirrors (Both (· = ·) (B.here id id' name)) B.Answer Cursor.readRow Cursor.readRow := by
  refine Mirrors.held.bind_eq fun tuple => ?_
  refine Mirrors.bind (A := B.Answer) (Mirrors.below (Mirrors.held.bind ?_)) fun cells _ hcells => ?_
  · rintro c _ ⟨n, hn, rfl, -, -⟩
    refine Mirrors.ofExcept_bind fun _ _ => ?_
    show Mirrors _ _ (if tuple.layout ≠ c.readLayout then _ else _) (if tuple.layout ≠ c.readLayout then _ else _)
    split
    · exact Mirrors.fail_bind
    · exact Mirrors.ofExcept_bind fun key _ => h.withEntries _
  · obtain ⟨rfl, hanswering⟩ := hcells
    exact (Tuple.mirrors_setValues cells).mono fun _ _ heq => ⟨heq, hanswering⟩

theorem insertRow {row : List Cell} (hrow : B.writes.insert row) :
    Mirrors (Both (· = ·) (B.here id id' name)) B.Answer (Cursor.insertRow row) (Cursor.insertRow row) := by
  refine Mirrors.state.bind ?_
  rintro ⟨tuple, c, db⟩ ⟨_, _, db'⟩ ⟨rfl, ⟨n, hn, rfl, -, -⟩, -⟩
  refine Mirrors.ofExcept_bind fun _ _ => (stage row).bind fun staged _ hstaged => ?_
  obtain ⟨rfl, rfl⟩ := hstaged
  refine ((h.onCopy hrow).bind fun _ _ hanswer => ?_).below
  exact (h.log _).mono fun _ _ heq => ⟨heq, hanswer.2⟩

theorem updateRow {row : List Cell} (hrow : B.writes.replace row) :
    Mirrors (Both (· = ·) (B.here id id' name)) B.Answer (Cursor.updateRow row) (Cursor.updateRow row) := by
  refine Mirrors.state.bind ?_
  rintro ⟨tuple, c, db⟩ ⟨_, _, db'⟩ ⟨rfl, ⟨n, hn, rfl, -, -⟩, -⟩
  refine Mirrors.ofExcept_bind fun _ _ => Mirrors.ofExcept_bind fun key _ => (stage row).bind fun staged _ hstaged => ?_
  obtain ⟨rfl, rfl⟩ := hstaged
  refine ((h.onCopy (hrow key)).bind fun _ _ hanswer => ?_).below
  exact (h.log _).mono fun _ _ heq => ⟨heq, hanswer.2⟩

theorem deleteRow (hremove : B.writes.remove) :
    Mirrors (B.here id id' name) B.Answer Cursor.deleteRow Cursor.deleteRow := by
  refine Mirrors.held.bind ?_
  rintro c _ ⟨n, hn, rfl, -, -⟩
  refine Mirrors.ofExcept_bind fun _ _ => Mirrors.ofExcept_bind fun key _ => ?_
  refine (h.onCopy (hremove key)).bind fun _ _ hanswer => ?_
  exact (h.log _).mono fun _ _ heq => ⟨heq, hanswer.2⟩

theorem advance (direction : Direction) :
    Mirrors (B.here id id' name) B.Answer (Cursor.advance direction) (Cursor.advance direction) := by
  have hplace : ∀ place, Mirrors (B.here id id' name) (· = ·) (Cursor.update fun c => { c with position := place })
      (Cursor.update fun c => { c with position := place }) := by
    refine fun place => update ?_
    rintro c _ ⟨n, hn, rfl, htxn, hname⟩
    exact ⟨n, hn, rfl, htxn, hname⟩
  refine Mirrors.held.bind ?_
  rintro c _ ⟨n, hn, rfl, -, -⟩
  refine Mirrors.ofExcept_bind fun _ _ => Mirrors.ofExcept_bind fun key _ => ?_
  refine (hplace none).bind_eq fun _ => (h.withEntries _).bind fun position _ hposition => ?_
  obtain ⟨rfl, hanswering⟩ := hposition
  exact (hplace position).mono fun _ _ heq => ⟨heq, hanswering⟩

theorem release {s s' : Cursor × Database} (hs : B.here id id' name s s') :
    B.here id id' name (Cursor.release s) (Cursor.release s') := by
  obtain ⟨c, db⟩ := s
  obtain ⟨_, db'⟩ := s'
  obtain ⟨⟨n, hn, rfl, rfl, rfl⟩, hs⟩ := hs
  unfold Cursor.release
  dsimp only
  split
  · exact ⟨⟨n, hn, rfl, rfl, rfl⟩, hs⟩
  · exact ⟨⟨n, hn, rfl, rfl, rfl⟩, h.record _ _ _ hn (h.ledger Ledger.cursorClosed _ _ hs)⟩

theorem close : Mirrors (B.here id id' name) (· = ·) Cursor.close Cursor.close := Mirrors.modify fun _ _ => h.release

/-- **The engine's calls mirror each other.** -/
theorem mirrors_engine {schema : TableSchema} (hname : schema.name = name) (level level' : IsolationLevel) :
    engine.Mirrors B.states (B.Alike id id' name) B.writes ⟨id, level⟩ ⟨id', level'⟩ schema where
  openTable := (h.create hname none).mono fun _ _ hc => hc.1
  setLockMode := h.setLockMode
  lock := h.lock
  searchTuple := h.searchTuple
  readTuple := h.readTuple
  search tuple mode := (h.search tuple mode).mono fun _ _ ha => ha.1
  hasNext := by
    rintro ⟨c, db⟩ ⟨_, db'⟩ ⟨⟨n, hn, rfl, -, -⟩, -⟩
    rfl
  readRow := h.readRow.mono fun _ _ ha => ha.1
  insertRow _ hrow := (h.insertRow hrow).mono fun _ _ ha => ha.1
  updateRow _ hrow := (h.updateRow hrow).mono fun _ _ ha => ha.1
  deleteRow hremove := (h.deleteRow hremove).mono fun _ _ ha => ha.1
  close := h.close
  letGoCursor c c' db db' hc hs := (h.release (show B.here id id' name (c, db) (c', db') from ⟨hc, hs⟩)).2
  tupleReleased := h.ledger Ledger.tupleDisposed

end Links
end Bond
end Memory
end RowStore

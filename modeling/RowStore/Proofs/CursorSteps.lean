import RowStore.Proofs.Copies
import RowStore.Proofs.TupleSteps

/-!
# What a call on a cursor does

Each call on an open cursor whose transaction has the table, as far as it succeeds: the cursor that is left, and the
table that the transaction has then (`Cursor.At`).  A call that reads leaves the table alone; a write on the clustered
index does to the table what `Table.insert`, `Table.replace` and `Table.remove` do.
-/
namespace RowStore
namespace Memory
namespace Cursor

open Attempt

variable {α : Type} {c : Cursor} {db : Database} {t : Table} {tuple : Tuple} {entries : Entries} {key : Key}

/-- A cursor as it is, and the table that its transaction has. -/
def At (c : Cursor) (t : Table) (s : Cursor × Database) : Prop := s.1 = c ∧ s.2.Has c.transaction c.schema.name t

theorem checkOpen_of_open (hopen : c.closed = false) : c.checkOpen = .ok () := by
  unfold checkOpen
  rw [hopen]
  rfl

theorem checkWritable_of_exclusive (hopen : c.closed = false) (hindex : c.index = none) (hlock : c.exclusive = true) :
    c.checkWritable = .ok () := by
  unfold checkWritable
  rw [checkOpen_of_open hopen, hindex, hlock]
  rfl

theorem resting_of_position {otherwise : Status} (hposition : c.position = some key) :
    c.resting otherwise = .ok key := by
  unfold resting
  rw [hposition]

/-! ## Opening -/

/-- **A new cursor is open, unlocked and nowhere.** -/
theorem ends_create {id : Nat} {schema : TableSchema} (index : Option Index) (h : db.Sees id schema.name t) :
    ∃ n, Ends (create id schema index) db (.ok { id := n, transaction := id, schema, index })
      fun db' => db'.Has id schema.name t := by
  obtain ⟨db', hdb', hhas⟩ := (Database.ends_onTable h false (pure ())).apply
  refine ⟨(db'.workspace id).nextCursor, Ends.bind (Ends.of_apply hdb' (Q := (· = db')) rfl) fun s hs => ?_⟩
  subst hs
  refine Ends.bind_state (Ends.bind (Ends.modify ?_) fun s hs => Ends.pure hs)
  have hcounted := hhas.setWorkspace rfl rfl
    (w := { s.workspace id with nextCursor := (s.workspace id).nextCursor + 1 })
  exact Database.Has.record (hcounted.ledger _) _ _

/-! ## Locking -/

theorem ends_log (operation : Operation) (h : db.Has c.transaction c.schema.name t) :
    Ends (log operation) (c, db) (.ok ()) (At c t) := Ends.modify ⟨rfl, h.record _ _⟩

theorem ends_setLockMode (mode : LockMode) (hopen : c.closed = false) (h : db.Has c.transaction c.schema.name t) :
    Ends (setLockMode mode) (c, db) (.ok ()) (At { c with lockMode := mode } t) := by
  refine Ends.bind_held (Ends.bind_ofExcept (checkOpen_of_open hopen) ?_)
  exact Ends.bind (Q := (· = ({ c with lockMode := mode }, db))) (Ends.modify rfl) fun s hs => hs ▸ ends_log _ h

theorem ends_lock (hopen : c.closed = false) (hmode : c.lockMode = .intentionExclusive)
    (h : db.Has c.transaction c.schema.name t) :
    Ends (lock .exclusive) (c, db) (.ok ()) (At { c with exclusive := true } t) := by
  refine Ends.bind_held (Ends.bind_ofExcept (checkOpen_of_open hopen) ?_)
  dsimp only
  rw [if_pos rfl, if_neg fun hne => hne hmode]
  exact Ends.bind (Q := (· = ({ c with exclusive := true }, db))) (Ends.modify rfl) fun s hs => hs ▸ ends_log _ h

theorem ends_lockForWrite (hopen : c.closed = false) (h : db.Has c.transaction c.schema.name t) :
    Ends engine.lockForWrite (c, db) (.ok ())
      (At { c with lockMode := .intentionExclusive, exclusive := true } t) := by
  refine Ends.bind (ends_setLockMode .intentionExclusive hopen h) fun s hs => ?_
  obtain ⟨c', db'⟩ := s
  obtain ⟨rfl, h'⟩ := hs
  exact ends_lock hopen rfl h'

theorem ends_setClusterAccess (hopen : c.closed = false) (h : db.Has c.transaction c.schema.name t) :
    Ends setClusterAccess (c, db) (.ok ()) (At { c with clusterAccess := c.index.isSome } t) :=
  Ends.bind_held (Ends.bind_ofExcept (checkOpen_of_open hopen) (Ends.modify ⟨rfl, h⟩))

/-! ## Tuples -/

theorem ends_makeTuple (tuple : Tuple) (h : db.Has c.transaction c.schema.name t) :
    Ends (makeTuple tuple) (c, db) (.ok tuple) (At c t) :=
  Ends.bind (Ends.modify ⟨rfl, h.ledger _⟩) fun _ hs => Ends.pure hs

/-- The tuple that a cursor makes for a key. -/
def keyTuple (c : Cursor) (key : Key) : Tuple where
  layout := c.keyLayout
  columns := c.keyColumns.take key.length
  cells := key

theorem ends_searchTuple (hopen : c.closed = false) (hkey : key.length ≤ c.keyColumns.length)
    (h : db.Has c.transaction c.schema.name t) :
    Ends (searchTuple key) (c, db) (.ok (c.keyTuple key)) (At c t) := by
  refine Ends.bind_held (Ends.bind_ofExcept (checkOpen_of_open hopen) ?_)
  dsimp only
  rw [if_neg (by omega)]
  exact ends_makeTuple _ h

/-- The tuple that a cursor makes for reading. -/
def freshTuple (c : Cursor) : Tuple where
  layout := c.readLayout
  columns := if c.readLayout = .clustered then c.schema.columns else c.keyColumns
  cells := []

theorem ends_readTuple (hopen : c.closed = false) (h : db.Has c.transaction c.schema.name t) :
    Ends readTuple (c, db) (.ok c.freshTuple) (At c t) :=
  Ends.bind_held (Ends.bind_ofExcept (checkOpen_of_open hopen) (ends_makeTuple _ h))

/-! ## Looking -/

theorem ends_withEntries {look : Table → Entries → Except Error α} (hentries : entriesOf t c.index = .ok entries)
    (h : db.Has c.transaction c.schema.name t) : Ends (withEntries look) (c, db) (look t entries) (At c t) := by
  refine Ends.bind_held (Ends.bind_held ?_)
  have hwork := Database.ends_onTable h.sees false (do
    let table ← Attempt.state
    let entries ← entriesOf table c.index
    look table entries : Action Table α)
  have happly : (do
      let table ← Attempt.state
      let entries ← entriesOf table c.index
      look table entries : Action Table α) t = (look t entries, t) := by
    show (Attempt.ofExcept (entriesOf t c.index) >>= fun entries => Attempt.ofExcept (look t entries)) t = _
    rw [hentries]
    rfl
  rw [happly] at hwork
  exact (Ends.below hwork).mono fun s hs => hs

/-- The cursor after a search. -/
def placed (c : Cursor) (position : Option Key) : Cursor := { c with position, positioned := position.isSome }

/-- **A search rests the cursor on the entry it finds.** -/
theorem ends_search (hopen : c.closed = false) (hlive : tuple.disposed = false) (mode : SearchMode)
    (hentries : entriesOf t c.index = .ok entries) (h : db.Has c.transaction c.schema.name t) :
    Ends (search tuple mode) (c, db) (.ok (entries.seek tuple.cells mode).isSome)
      (At (c.placed (entries.seek tuple.cells mode)) t) := by
  refine Ends.bind_held (Ends.bind_ofExcept (checkOpen_of_open hopen) ?_)
  refine Ends.bind_ofExcept (Tuple.values_of_live hlive) ?_
  refine Ends.bind (ends_withEntries hentries h) fun s hs => ?_
  obtain ⟨c', db'⟩ := s
  obtain ⟨rfl, h'⟩ := hs
  refine Ends.bind (Q := (· = (c'.placed (entries.seek tuple.cells mode), db'))) (Ends.modify rfl) fun s hs => ?_
  subst hs
  exact Ends.bind (ends_log _ h') fun s hs => Ends.pure hs

/-- **An advance rests the cursor on the next entry**, or nowhere. -/
theorem ends_advance (hopen : c.closed = false) (hposition : c.position = some key) (direction : Direction)
    (hentries : entriesOf t c.index = .ok entries) (h : db.Has c.transaction c.schema.name t) :
    Ends (advance direction) (c, db) (.ok ()) (At { c with position := entries.step key direction } t) := by
  refine Ends.bind_held (Ends.bind_ofExcept (checkOpen_of_open hopen) ?_)
  refine Ends.bind_ofExcept (resting_of_position hposition) ?_
  refine Ends.bind (Q := (· = ({ c with position := none }, db))) (Ends.modify rfl) fun s hs => ?_
  subst hs
  have hlook : entriesOf t ({ c with position := none } : Cursor).index = .ok entries := hentries
  refine Ends.bind (ends_withEntries hlook h) fun s hs => ?_
  obtain ⟨c', db'⟩ := s
  obtain ⟨rfl, h'⟩ := hs
  exact Ends.modify ⟨rfl, h'⟩

/-- A cursor and the tuple at hand. -/
def Held (tuple : Tuple) (c : Cursor) (t : Table) (s : Tuple × Cursor × Database) : Prop := s.1 = tuple ∧ At c t s.2

/-- What a read reads: the cells under the cursor, if there are any. -/
theorem ends_readCells (hopen : c.closed = false) (hlayout : tuple.layout = c.readLayout)
    (hposition : c.position = some key) (hentries : entriesOf t c.index = .ok entries)
    (h : db.Has c.transaction c.schema.name t) :
    Ends (do
      let cursor ← Attempt.held
      cursor.checkOpen
      if tuple.layout ≠ cursor.readLayout then Attempt.fail (.engine .dataMismatch)
      let key ← cursor.resting .recordNotFound
      withEntries fun table entries =>
        match entries.read? table cursor.clusterAccess key with
        | some cells => .ok cells
        | none => .error (.engine .recordNotFound) : Action (Cursor × Database) (List Cell)) (c, db)
      (match entries.read? t c.clusterAccess key with
        | some cells => .ok cells
        | none => .error (.engine .recordNotFound)) (At c t) := by
  refine Ends.bind_held (Ends.bind_ofExcept (checkOpen_of_open hopen) ?_)
  dsimp only
  rw [if_neg fun hne => hne hlayout]
  refine Ends.bind_ofExcept (resting_of_position hposition) ?_
  exact ends_withEntries hentries h

/-- **A read stages what is under the cursor.** -/
theorem ends_readRow {cells : List Cell} (hopen : c.closed = false) (hlive : tuple.disposed = false)
    (hlayout : tuple.layout = c.readLayout) (hposition : c.position = some key)
    (hentries : entriesOf t c.index = .ok entries) (hread : entries.read? t c.clusterAccess key = some cells)
    (h : db.Has c.transaction c.schema.name t) :
    Ends readRow (tuple, c, db) (.ok ()) (Held { tuple with cells } c t) := by
  have hcells := ends_readCells hopen hlayout hposition hentries h
  rw [hread] at hcells
  refine Ends.bind_held (Ends.bind (Ends.below hcells) fun s hs => ?_)
  obtain ⟨tuple', s⟩ := s
  obtain ⟨rfl, hs⟩ := hs
  refine Ends.of_apply ?_ (u := ({ tuple' with cells }, s)) ⟨rfl, hs⟩
  rw [Tuple.setValues_apply, if_neg (by rw [hlive]; exact Bool.false_ne_true)]

/-- **A read fails where the entry under the cursor is gone**, and stages nothing. -/
theorem ends_readRow_gone (hopen : c.closed = false) (hlayout : tuple.layout = c.readLayout)
    (hposition : c.position = some key) (hentries : entriesOf t c.index = .ok entries)
    (hgone : entries.read? t c.clusterAccess key = none) (h : db.Has c.transaction c.schema.name t) :
    Ends readRow (tuple, c, db) (.error (.engine .recordNotFound)) (Held tuple c t) := by
  have hcells := ends_readCells hopen hlayout hposition hentries h
  rw [hgone] at hcells
  exact Ends.bind_held (Ends.bind_error (Ends.below hcells))

/-! ## Writing -/

theorem ends_onTable (write : Bool) (work : Action Table α) (h : db.Has c.transaction c.schema.name t) :
    Ends (onTable write work) (c, db) (work t).1 (At c (work t).2) :=
  Ends.bind_held (Ends.below (Database.ends_onTable h.sees write work))

theorem ends_stage (row : List Cell) (hlive : tuple.disposed = false) (s : Cursor × Database) :
    Ends (stage row) (tuple, s) (.ok row) (· = ({ tuple with cells := row }, s)) := by
  refine Ends.of_apply ?_ rfl
  rw [stage_apply, if_neg (by rw [hlive]; exact Bool.false_ne_true)]

theorem ends_logged (work : Action Table α) (operation : Operation) (h : db.Has c.transaction c.schema.name t) :
    Ends (onTable true work >>= fun _ => log operation) (c, db) ((work t).1.map fun _ => ()) (At c (work t).2) := by
  have hwork := ends_onTable true work h
  cases hr : (work t).1 with
  | error e =>
    rw [hr] at hwork
    exact Ends.bind_error hwork
  | ok a =>
    rw [hr] at hwork
    refine Ends.bind hwork fun s hs => ?_
    obtain ⟨c', db'⟩ := s
    obtain ⟨rfl, h'⟩ := hs
    exact ends_log _ h'

theorem ends_insertRow (row : List Cell) (hopen : c.closed = false) (hindex : c.index = none)
    (hlock : c.exclusive = true) (hlive : tuple.disposed = false) (h : db.Has c.transaction c.schema.name t) :
    Ends (insertRow row) (tuple, c, db) (Table.insert row t).1
      (Held { tuple with cells := row } c (Table.insert row t).2) := by
  refine Ends.bind_state (Ends.bind_ofExcept (checkWritable_of_exclusive hopen hindex hlock) ?_)
  refine Ends.bind (ends_stage row hlive (c, db)) fun s hs => ?_
  subst hs
  have hlogged := ends_logged (Table.insert row) .inserted h
  rw [show (Table.insert row t).1.map (fun _ => ()) = (Table.insert row t).1 by cases (Table.insert row t).1 <;> rfl]
    at hlogged
  exact Ends.below hlogged

theorem ends_updateRow (row : List Cell) (hopen : c.closed = false) (hindex : c.index = none)
    (hlock : c.exclusive = true) (hposition : c.position = some key) (hlive : tuple.disposed = false)
    (h : db.Has c.transaction c.schema.name t) :
    Ends (updateRow row) (tuple, c, db) (Table.replace key row t).1
      (Held { tuple with cells := row } c (Table.replace key row t).2) := by
  refine Ends.bind_state (Ends.bind_ofExcept (checkWritable_of_exclusive hopen hindex hlock) ?_)
  refine Ends.bind_ofExcept (resting_of_position hposition) ?_
  refine Ends.bind (ends_stage row hlive (c, db)) fun s hs => ?_
  subst hs
  have hlogged := ends_logged (Table.replace key row) .updated h
  rw [show (Table.replace key row t).1.map (fun _ => ()) = (Table.replace key row t).1 by
    cases (Table.replace key row t).1 <;> rfl] at hlogged
  exact Ends.below hlogged

theorem ends_deleteRow (hopen : c.closed = false) (hindex : c.index = none) (hlock : c.exclusive = true)
    (hposition : c.position = some key) (h : db.Has c.transaction c.schema.name t) :
    Ends deleteRow (c, db) ((Table.remove key t).1.map fun _ => ()) (At c (Table.remove key t).2) := by
  refine Ends.bind_held (Ends.bind_ofExcept (checkWritable_of_exclusive hopen hindex hlock) ?_)
  refine Ends.bind_ofExcept (resting_of_position hposition) ?_
  exact ends_logged (Table.remove key) .deleted h

/-! ## Releasing -/

theorem has_release (hopen : c.closed = false) (h : db.Has c.transaction c.schema.name t) :
    At { c with closed := true, position := none } t (release (c, db)) := by
  unfold release
  dsimp only
  rw [if_neg (by rw [hopen]; exact Bool.false_ne_true)]
  exact ⟨rfl, (h.ledger _).record _ _⟩

theorem ends_close (hopen : c.closed = false) (h : db.Has c.transaction c.schema.name t) :
    Ends close (c, db) (.ok ()) (At { c with closed := true, position := none } t) := Ends.modify (has_release hopen h)

theorem has_letGo (h : db.Has c.transaction c.schema.name t) : (letGo c db).Has c.transaction c.schema.name t := by
  unfold letGo
  cases hclosed : c.closed with
  | true =>
    unfold release
    dsimp only
    rw [if_pos hclosed]
    exact h
  | false => exact (has_release hclosed h).2

end Cursor
end Memory
end RowStore

import RowStore.Proofs.Copies
import RowStore.Proofs.Deeds

/-!
# What a call on a cursor logs

A transaction's log, read for what locks, searches and writes there were (`Database.marks`).  A call on a cursor that
succeeds adds at most one entry to it, one that fails adds none, and neither changes which cursor it is, whose it is and
whether it is closed (`Cursor.Notes`).  Opening a cursor takes the next number and logs it; releasing one logs it once.
The ledger counts the tuples that are made and the cursors that are opened and closed, and nothing else.
-/
namespace RowStore
namespace Memory

open Attempt

variable {α β : Type}

/-- What matters of an entry of the log. -/
inductive Mark
  | opened (onIndex : Bool)
  | lockModeSet (mode : LockMode)
  | locked (mode : LockMode)
  | searched
  | wrote
  | closed
  deriving DecidableEq

def Operation.mark : Operation → Mark
  | opened _ index => .opened index.isSome
  | lockModeSet mode => .lockModeSet mode
  | locked mode => .locked mode
  | searched _ _ => .searched
  | inserted | updated | deleted => .wrote
  | closed => .closed

namespace Database

variable {db : Database} {id : Nat} {name : String}

/-- A transaction's log. -/
def marks (db : Database) (id : Nat) : List (Nat × Mark) :=
  (db.workspace id).events.map fun event => (event.cursor, event.operation.mark)

/-- The number of a transaction's next cursor, and its log. -/
def journal (db : Database) (id : Nat) : Nat × List (Nat × Mark) := ((db.workspace id).nextCursor, db.marks id)

theorem journal_setWorkspace (db : Database) (id : Nat) (w : Workspace) : (db.setWorkspace id w).journal id =
    (w.nextCursor, w.events.map fun event => (event.cursor, event.operation.mark)) := by
  unfold journal marks
  rw [workspace_setWorkspace]

/-- Work on a table logs nothing. -/
theorem journal_onTable (db : Database) (id : Nat) (name : String) (write : Bool) (work : Action Table α) :
    (onTable id name write work db).2.journal id = db.journal id := by
  by_cases hactive : (db.workspace id).state = .active
  · rw [onTable_of_active hactive]
    cases db.copy? id name with
    | none => rfl
    | some copy => exact journal_setWorkspace _ _ _
  · rw [onTable_of_not_active hactive]

/-- Nor does it count anything. -/
theorem counts_onTable (db : Database) (id : Nat) (name : String) (write : Bool) (work : Action Table α) :
    (onTable id name write work db).2.ledger = db.ledger ∧
      (onTable id name write work db).2.nextTransaction = db.nextTransaction := by
  by_cases hactive : (db.workspace id).state = .active
  · rw [onTable_of_active hactive]
    cases db.copy? id name with
    | none => exact ⟨rfl, rfl⟩
    | some copy => exact ⟨rfl, rfl⟩
  · rw [onTable_of_not_active hactive]
    exact ⟨rfl, rfl⟩

theorem journal_record (db : Database) (id cursor : Nat) (operation : Operation) :
    (record id cursor operation db).journal id =
    ((db.journal id).1, (db.journal id).2 ++ [(cursor, operation.mark)]) := by
  unfold record
  rw [journal_setWorkspace, List.map_append]
  rfl

end Database

namespace Cursor

/-! ## Calls -/

/-- The same cursor, with an entry or none in the log, and with what is counted in the ledger. -/
structure Noted (mark : Option Mark) (count : Ledger → Ledger) (here here' : Cursor × Database) : Prop where
  id : here'.1.id = here.1.id
  transaction : here'.1.transaction = here.1.transaction
  closed : here'.1.closed = here.1.closed
  journal : here'.2.journal here.1.transaction = ((here.2.journal here.1.transaction).1,
    (here.2.journal here.1.transaction).2 ++ mark.toList.map (here.1.id, ·))
  ledger : here'.2.ledger = count here.2.ledger
  numbering : here'.2.nextTransaction = here.2.nextTransaction

theorem Noted.refl (here : Cursor × Database) : Noted none (fun l => l) here here :=
  ⟨rfl, rfl, rfl, by simp, rfl, rfl⟩

theorem Noted.trans {mark : Option Mark} {count : Ledger → Ledger} {here here' here'' : Cursor × Database}
    (h : Noted none (fun l => l) here here') (h' : Noted mark count here' here'') : Noted mark count here here'' := by
  refine ⟨h'.id.trans h.id, h'.transaction.trans h.transaction, h'.closed.trans h.closed, ?_,
    h'.ledger.trans (congrArg count h.ledger), h'.numbering.trans h.numbering⟩
  have hjournal := h'.journal
  rw [h.id, h.transaction, h.journal] at hjournal
  simpa using hjournal

/-- A call logs an entry if it succeeds, and none if it fails. -/
def Notes (mark : Option Mark) (m : Action (Cursor × Database) α) : Prop :=
  ∀ here, Noted ((m here).1.toOption.bind fun _ => mark) (fun l => l) here (m here).2

variable {mark : Option Mark} {m : Action (Cursor × Database) α}

namespace Notes

theorem ofExcept (r : Except Error α) : Notes none (Attempt.ofExcept r : Action (Cursor × Database) α) := fun _ => by
  rw [Option.bind_fun_none]
  exact .refl _

theorem bind {f : α → Action (Cursor × Database) β} (hm : Notes none m) (hf : ∀ a, Notes mark (f a)) :
    Notes mark (m >>= f) := by
  intro here
  have hfirst := hm here
  rw [Option.bind_fun_none] at hfirst
  rw [bind_apply]
  rcases hms : m here with ⟨e | a, here'⟩ <;> rw [hms] at hfirst
  · exact hfirst
  · exact hfirst.trans (hf a here')

theorem held_bind {f : Cursor → Action (Cursor × Database) α} (hf : ∀ c, Notes mark (f c)) :
    Notes mark (Attempt.held >>= f) := fun here => hf here.1 here

theorem check_bind {r : Except Error β} {f : β → Action (Cursor × Database) α} (hf : ∀ b, Notes mark (f b)) :
    Notes mark (Attempt.ofExcept r >>= f) := (ofExcept r).bind hf

theorem bind_pure (hm : Notes mark m) (f : α → β) : Notes mark (m >>= fun a => pure (f a)) := by
  intro here
  have hfirst := hm here
  rw [bind_apply]
  rcases hms : m here with ⟨e | a, here'⟩ <;> rw [hms] at hfirst <;> exact hfirst

theorem update {f : Cursor → Cursor} (hf : ∀ c, (f c).id = c.id ∧ (f c).transaction = c.transaction ∧
    (f c).closed = c.closed) : Notes none (update f) := fun here =>
  ⟨(hf here.1).1, (hf here.1).2.1, (hf here.1).2.2, by simp [Cursor.update, Attempt.modify], rfl, rfl⟩

theorem log (operation : Operation) : Notes (some operation.mark) (log operation) := fun _ =>
  ⟨rfl, rfl, rfl, Database.journal_record _ _ _ _, rfl, rfl⟩

theorem onTable (write : Bool) (work : Action Table α) : Notes none (onTable write work) := by
  rintro ⟨c, db⟩
  rw [Option.bind_fun_none]
  obtain ⟨hledger, hnumbering⟩ := Database.counts_onTable db c.transaction c.schema.name write work
  refine ⟨rfl, rfl, rfl, ?_, hledger, hnumbering⟩
  have hjournal : (Cursor.onTable write work (c, db)).2.2.journal c.transaction = db.journal c.transaction :=
    Database.journal_onTable db c.transaction c.schema.name write work
  simpa using hjournal

theorem withEntries (look : Table → Entries → Except Error α) : Notes none (withEntries look) :=
  held_bind fun _ => onTable _ _

end Notes

theorem notes_setLockMode (mode : LockMode) : Notes (some (.lockModeSet mode)) (setLockMode mode) := by
  refine .held_bind fun _ => .check_bind fun _ => .bind (.update fun c => ?_) fun _ => .log (.lockModeSet mode)
  exact ⟨rfl, rfl, rfl⟩

theorem notes_lock (mode : LockMode) : Notes (some (.locked mode)) (lock mode) := by
  refine .held_bind fun c => .check_bind fun _ => ?_
  dsimp only
  split
  · split
    · exact fun here => .refl here
    · refine .bind (.update fun c => ?_) fun _ => .log (.locked mode)
      exact ⟨rfl, rfl, rfl⟩
  · exact .log (.locked mode)

theorem notes_setClusterAccess : Notes none setClusterAccess := by
  refine .held_bind fun _ => .check_bind fun _ => .update fun c => ?_
  exact ⟨rfl, rfl, rfl⟩

theorem notes_search (tuple : Tuple) (mode : SearchMode) : Notes (some .searched) (search tuple mode) := by
  refine .held_bind fun _ => .check_bind fun _ => .check_bind fun _ => .bind (.withEntries _) fun place => ?_
  refine .bind (.update fun c => ?_) fun _ => .bind_pure (.log (.searched mode place.isSome)) fun _ => place.isSome
  exact ⟨rfl, rfl, rfl⟩

theorem notes_deleteRow : Notes (some .wrote) deleteRow := by
  refine .held_bind fun _ => .check_bind fun _ => .check_bind fun _ => .bind (.onTable _ _) fun _ => ?_
  exact .log .deleted

theorem notes_advance (direction : Direction) : Notes none (advance direction) := by
  refine .held_bind fun _ => .check_bind fun _ => .check_bind fun _ => .bind (.update fun c => ?_) fun _ => ?_
  · exact ⟨rfl, rfl, rfl⟩
  · refine .bind (.withEntries _) fun _ => .update fun c => ?_
    exact ⟨rfl, rfl, rfl⟩

/-! ## Tuples -/

/-- A call on a tuple and a cursor logs what it does, and the tuple stays as live as it was. -/
def RowNotes (mark : Option Mark) (m : Action (Tuple × Cursor × Database) α) : Prop :=
  ∀ tuple here, (m (tuple, here)).2.1.disposed = tuple.disposed ∧
    Noted ((m (tuple, here)).1.toOption.bind fun _ => mark) (fun l => l) here (m (tuple, here)).2.2

namespace RowNotes

variable {m : Action (Tuple × Cursor × Database) α}

theorem below {m : Action (Cursor × Database) α} (hm : Notes mark m) : RowNotes mark (below m) :=
  fun _ here => ⟨rfl, hm here⟩

theorem bind {f : α → Action (Tuple × Cursor × Database) β} (hm : RowNotes none m) (hf : ∀ a, RowNotes mark (f a)) :
    RowNotes mark (m >>= f) := by
  intro tuple here
  obtain ⟨hlive, hfirst⟩ := hm tuple here
  rw [Option.bind_fun_none] at hfirst
  rw [bind_apply]
  rcases hms : m (tuple, here) with ⟨e | a, tuple', here'⟩ <;> rw [hms] at hlive hfirst
  · exact ⟨hlive, hfirst⟩
  · obtain ⟨hlive', hrest⟩ := hf a tuple' here'
    exact ⟨hlive'.trans hlive, hfirst.trans hrest⟩

theorem look_bind {m : Action (Tuple × Cursor × Database) β} {f : β → Action (Tuple × Cursor × Database) α}
    (hm : ∀ s, ∃ b, m s = (.ok b, s)) (hf : ∀ b, RowNotes mark (f b)) : RowNotes mark (m >>= f) := by
  intro tuple here
  obtain ⟨b, hb⟩ := hm (tuple, here)
  rw [bind_apply, hb]
  exact hf b tuple here

theorem check_bind {r : Except Error β} {f : β → Action (Tuple × Cursor × Database) α} (hf : ∀ b, RowNotes mark (f b)) :
    RowNotes mark (Attempt.ofExcept r >>= f) := by
  cases r with
  | error e => exact fun _ here => ⟨rfl, .refl here⟩
  | ok b => exact hf b

theorem setValues (cells : List Cell) : RowNotes none (Tuple.setValues cells : Action (Tuple × Cursor × Database) Unit) := by
  intro tuple here
  rw [Tuple.setValues_apply, Option.bind_fun_none]
  split <;> exact ⟨rfl, .refl here⟩

theorem stage (row : List Cell) : RowNotes none (stage row) := by
  intro tuple here
  rw [stage_apply, Option.bind_fun_none]
  split <;> exact ⟨rfl, .refl here⟩

end RowNotes

theorem rowNotes_readRow : RowNotes none readRow := by
  refine .look_bind (fun s => ⟨s.1, rfl⟩) fun tuple => .bind (.below ?_) fun cells => .setValues cells
  refine .held_bind fun c => .check_bind fun _ => ?_
  dsimp only
  split
  · exact fun here => .refl here
  · exact .check_bind fun key => .withEntries _

theorem rowNotes_insertRow (row : List Cell) : RowNotes (some .wrote) (insertRow row) := by
  refine .look_bind (fun s => ⟨s, rfl⟩) fun here => .check_bind fun _ => .bind (.stage row) fun staged => .below ?_
  exact .bind (.onTable _ _) fun _ => .log .inserted

theorem rowNotes_updateRow (row : List Cell) : RowNotes (some .wrote) (updateRow row) := by
  refine .look_bind (fun s => ⟨s, rfl⟩) fun here => .check_bind fun _ => .check_bind fun key => ?_
  refine .bind (.stage row) fun staged => .below ?_
  exact .bind (.onTable _ _) fun _ => .log .updated

/-- A live tuple is made and counted, or none. -/
def NotesTuple (m : Action (Cursor × Database) Tuple) : Prop := ∀ here, match (m here).1 with
  | .ok tuple => tuple.disposed = false ∧ Noted none Ledger.tupleCreated here (m here).2
  | .error _ => Noted none (fun l => l) here (m here).2

theorem NotesTuple.makeTuple {tuple : Tuple} (h : tuple.disposed = false) : NotesTuple (makeTuple tuple) := fun _ =>
  ⟨h, rfl, rfl, rfl, (List.append_nil _).symm ▸ rfl, rfl, rfl⟩

theorem NotesTuple.fail (e : Error) : NotesTuple (Attempt.fail e) := fun _ => .refl _

theorem NotesTuple.check_bind {r : Except Error β} {f : β → Action (Cursor × Database) Tuple}
    (hf : ∀ b, NotesTuple (f b)) : NotesTuple (Attempt.ofExcept r >>= f) := by
  cases r with
  | error e => exact .fail e
  | ok b => exact hf b

theorem notesTuple_searchTuple (key : Key) : NotesTuple (searchTuple key) := by
  intro here
  refine NotesTuple.check_bind (r := here.1.checkOpen) (fun _ => ?_) here
  dsimp only
  split
  · exact .fail _
  · exact .makeTuple rfl

theorem notesTuple_readTuple : NotesTuple readTuple := fun here =>
  NotesTuple.check_bind (r := here.1.checkOpen) (fun _ => .makeTuple rfl) here

/-! ## Opening and releasing -/

/-- **A cursor that is opened gets the next number, and its opening is logged.** -/
def NotesOpening (id : Nat) (onIndex : Bool) (m : Action Database Cursor) : Prop := ∀ db, match m db with
  | (.ok c, db') => c.id = (db.journal id).1 ∧ c.transaction = id ∧ c.closed = false ∧
    db'.journal id = ((db.journal id).1 + 1, (db.journal id).2 ++ [(c.id, .opened onIndex)]) ∧
      db'.ledger = db.ledger.cursorOpened ∧ db'.nextTransaction = db.nextTransaction
  | (.error _, db') => db'.journal id = db.journal id ∧ db'.ledger = db.ledger ∧
    db'.nextTransaction = db.nextTransaction

theorem notesOpening_create (id : Nat) (schema : TableSchema) (index : Option Index) :
    NotesOpening id index.isSome (create id schema index) := by
  intro db
  have hjournal := Database.journal_onTable db id schema.name false (pure () : Action Table Unit)
  have hcounts := Database.counts_onTable db id schema.name false (pure () : Action Table Unit)
  unfold create
  rw [bind_apply]
  rcases honTable : Database.onTable id schema.name false (pure ()) db with ⟨e | _, db'⟩ <;>
    rw [honTable] at hjournal hcounts
  · exact ⟨hjournal, hcounts⟩
  · refine ⟨congrArg Prod.fst hjournal, rfl, rfl, ?_, congrArg Ledger.cursorOpened hcounts.1, hcounts.2⟩
    refine (Database.journal_record _ _ _ _).trans ?_
    have hcounted : ({ db'.setWorkspace id { db'.workspace id with nextCursor := (db'.workspace id).nextCursor + 1 } with
        ledger := db'.ledger.cursorOpened } : Database).journal id = ((db'.journal id).1 + 1, (db'.journal id).2) :=
      Database.journal_setWorkspace db' id _
    have hmark : (Operation.opened schema.name (index.map Index.name)).mark = .opened index.isSome :=
      congrArg Mark.opened Option.isSome_map
    rw [hcounted, ← hjournal, hmark]

theorem notesOpening_createOnIndex (id : Nat) (table : Cursor) (index : Index) :
    NotesOpening id true (createOnIndex id table index) := by
  unfold createOnIndex
  cases table.checkOpen with
  | error e => exact fun db => ⟨rfl, rfl, rfl⟩
  | ok _ =>
    cases table.schema.secondary? index.name with
    | some index => exact notesOpening_create id table.schema (some index)
    | none => exact fun db => ⟨rfl, rfl, rfl⟩

theorem release_journal (c : Cursor) (db : Database) :
    (release (c, db)).1.id = c.id ∧ (release (c, db)).1.transaction = c.transaction ∧ (release (c, db)).1.closed = true ∧
      (release (c, db)).2.journal c.transaction = ((db.journal c.transaction).1,
        (db.journal c.transaction).2 ++ if c.closed then [] else [(c.id, .closed)]) ∧
      (release (c, db)).2.ledger = (if c.closed then db.ledger else db.ledger.cursorClosed) ∧
      (release (c, db)).2.nextTransaction = db.nextTransaction := by
  unfold release
  dsimp only
  cases hclosed : c.closed with
  | true => exact ⟨rfl, rfl, hclosed, by simp, rfl, rfl⟩
  | false => exact ⟨rfl, rfl, rfl, Database.journal_record _ _ _ _, rfl, rfl⟩

end Cursor
end Memory
end RowStore

import RowStore.Proofs.Desks
import RowStore.Proofs.SpentHandles

/-!
# The ledger is exact

The ledger is the sum of what the handles on a client's desk add to it (`tally`): each counts once as made, and once as
released when it has been released or let go of.  What requests and scans take for themselves comes and goes, and counts
on both sides.  Every handling keeps this (`Handling.counted`), so it holds after every run (`ledger_is_exact`).
-/
namespace RowStore

open Attempt

namespace Memory

variable {α ρ : Type} {tuples tuples' : List (Option Tuple)} {cursors cursors' : List (Option Cursor)} {p q : Nat}

/-! ## Handles and their ledger -/

/-- The ledger of certain tuples and cursors, of which some have been let go of, and of so many more that have come and
gone. -/
def tally (tuples : List (Option Tuple)) (cursors : List (Option Cursor)) (p q : Nat) : Ledger where
  tuplesCreated := tuples.length + p
  tuplesDisposed := tuples.countP (Option.all Tuple.disposed) + p
  cursorsOpened := cursors.length + q
  cursorsClosed := cursors.countP (Option.all Cursor.closed) + q

theorem tally_perm (ht : tuples.Perm tuples') (hc : cursors.Perm cursors') :
    tally tuples cursors p q = tally tuples' cursors' p q := by
  unfold tally
  rw [ht.length_eq, hc.length_eq, ht.countP_eq, hc.countP_eq]

theorem tally_tuple {x y : Option Tuple} (h : y.all Tuple.disposed = x.all Tuple.disposed) :
    tally (x :: tuples) cursors p q = tally (y :: tuples) cursors p q := by
  unfold tally
  simp only [List.length_cons, List.countP_cons, h]

theorem tally_cursor {x y : Option Cursor} (h : y.all Cursor.closed = x.all Cursor.closed) :
    tally tuples (x :: cursors) p q = tally tuples (y :: cursors) p q := by
  unfold tally
  simp only [List.length_cons, List.countP_cons, h]

theorem tupleCreated_tally {tuple : Tuple} (h : tuple.disposed = false) :
    (tally tuples cursors p q).tupleCreated = tally (some tuple :: tuples) cursors p q := by
  unfold tally Ledger.tupleCreated
  simp [h]
  omega

theorem cursorOpened_tally {c : Cursor} (h : c.closed = false) :
    (tally tuples cursors p q).cursorOpened = tally tuples (some c :: cursors) p q := by
  unfold tally Ledger.cursorOpened
  simp [h]
  omega

theorem tupleDisposed_tally {x y : Option Tuple} (h : x.all Tuple.disposed = false) (h' : y.all Tuple.disposed = true) :
    (tally (x :: tuples) cursors p q).tupleDisposed = tally (y :: tuples) cursors p q := by
  unfold tally Ledger.tupleDisposed
  simp [h, h']
  omega

theorem cursorClosed_tally {x y : Option Cursor} (h : x.all Cursor.closed = false) (h' : y.all Cursor.closed = true) :
    (tally tuples (x :: cursors) p q).cursorClosed = tally tuples (y :: cursors) p q := by
  unfold tally Ledger.cursorClosed
  simp [h, h']
  omega

/-- A tuple that is let go of has come and gone. -/
theorem tally_no_tuple : tally (none :: tuples) cursors p q = tally tuples cursors (p + 1) q := by
  unfold tally
  simp
  omega

theorem tally_no_cursor : tally tuples (none :: cursors) p q = tally tuples cursors p (q + 1) := by
  unfold tally
  simp
  omega

/-! ## Calls -/

namespace Cursor

/-- A call on a cursor keeps the tally. -/
def Tallied (m : Action (Cursor × Database) α) : Prop :=
  ∀ here tuples cursors p q, here.2.ledger = tally tuples (some here.1 :: cursors) p q →
    (m here).2.2.ledger = tally tuples (some (m here).2.1 :: cursors) p q

theorem Noted.tallied {mark : Option Mark} {here here' : Cursor × Database} (h : Noted mark (fun l => l) here here')
    (hledger : here.2.ledger = tally tuples (some here.1 :: cursors) p q) :
    here'.2.ledger = tally tuples (some here'.1 :: cursors) p q :=
  (h.ledger.trans hledger).trans (tally_cursor h.closed)

theorem Notes.tallied {mark : Option Mark} {m : Action (Cursor × Database) α} (h : Notes mark m) : Tallied m :=
  fun here _ _ _ _ => (h here).tallied

/-- **A cursor is released once**, whether it has been closed before or not. -/
theorem ledger_release {c : Cursor} {db : Database} {x : Option Cursor} (hx : x.all Cursor.closed = true)
    (hledger : db.ledger = tally tuples (some c :: cursors) p q) :
    (release (c, db)).2.ledger = tally tuples (x :: cursors) p q := by
  obtain ⟨-, -, -, -, hreleased, -⟩ := release_journal c db
  rw [hreleased]
  cases hclosed : c.closed with
  | true => exact hledger.trans (tally_cursor (hx.trans hclosed.symm))
  | false => exact (congrArg Ledger.cursorClosed hledger).trans (cursorClosed_tally hclosed hx)

theorem tallied_close : Tallied close := fun here _ _ _ _ =>
  ledger_release (release_journal here.1 here.2).2.2.1

theorem rowNotes_searchHeld (mode : SearchMode) : RowNotes (some .searched) (engine.searchHeld mode) :=
  .look_bind (fun s => ⟨s.1, rfl⟩) fun tuple => .below (notes_search tuple mode)

end Cursor

/-- A call on a tuple keeps the tally. -/
def TupleTallied (m : Action (Tuple × Database) α) : Prop :=
  ∀ here tuples cursors p q, here.2.ledger = tally (some here.1 :: tuples) cursors p q →
    (m here).2.2.ledger = tally (some (m here).2.1 :: tuples) cursors p q

theorem tallied_setValues (cells : List Cell) : TupleTallied (Tuple.setValues cells) := by
  rintro ⟨tuple, db⟩ tuples cursors p q hledger
  rw [Tuple.setValues_apply]
  split
  · exact hledger
  · exact hledger.trans (tally_tuple rfl)

theorem tallied_dispose : TupleTallied (Tuple.dispose engine.tupleReleased) := by
  rintro ⟨tuple, db⟩ tuples cursors p q hledger
  rw [Tuple.dispose_apply]
  split
  · exact hledger
  · rename_i hlive
    exact (congrArg Ledger.tupleDisposed hledger).trans (tupleDisposed_tally (eq_false_of_ne_true hlive) rfl)

/-- **A tuple is released once**, whether it has been disposed of before or not. -/
theorem ledger_letGoTuple {tuple : Tuple} {db : Database}
    (hledger : db.ledger = tally (some tuple :: tuples) cursors p q) :
    (tuple.letGo engine.tupleReleased db).ledger = tally (none :: tuples) cursors p q := by
  unfold Tuple.letGo
  split
  · rename_i hdisposed
    exact hledger.trans (tally_tuple hdisposed.symm)
  · rename_i hlive
    exact (congrArg Ledger.tupleDisposed hledger).trans (tupleDisposed_tally (eq_false_of_ne_true hlive) rfl)

/-! ## Requests and scans -/

/-- More cursors and live tuples are at hand than certain others. -/
def tallyWatch (tuples : List (Option Tuple)) (cursors : List (Option Cursor)) : Watch Database Cursor Unit where
  name _ := ()
  holds _ more live db :=
    ∃ p q, db.ledger = tally (List.replicate live (some default) ++ tuples) (more.map some ++ cursors) p q

theorem Cursor.Notes.asked {mark : Option Mark} {m : Action (Cursor × Database) α} (h : Notes mark m) {call : Ask} :
    (tallyWatch tuples cursors).Asked m call := by
  rintro more live - made here ⟨-, p, q, hledger⟩
  exact ⟨_, rfl, rfl, p, q, (h here).tallied hledger⟩

theorem Cursor.RowNotes.asked {mark : Option Mark} {m : Action (Tuple × Cursor × Database) α} (h : RowNotes mark m)
    {call : Ask} : (tallyWatch tuples cursors).RowAsked m call := by
  rintro more live - made ⟨tuple, here⟩ ⟨hlive, -, p, q, hledger⟩
  obtain ⟨hdisposed, hnoted⟩ := h tuple here
  exact ⟨_, rfl, hdisposed.trans hlive, rfl, p, q, hnoted.tallied hledger⟩

theorem Cursor.NotesTuple.watched {m : Action (Cursor × Database) Tuple} (h : NotesTuple m) {call : Ask} :
    (tallyWatch tuples cursors).Makes m call := by
  rintro more live - made here ⟨-, p, q, hledger⟩
  have hmade := h here
  refine ⟨_, rfl, ?_⟩
  rcases hm : m here with ⟨e | tuple, here'⟩ <;> rw [hm] at hmade
  · exact ⟨rfl, p, q, hmade.tallied hledger⟩
  · obtain ⟨hlive, hnoted⟩ := hmade
    refine ⟨hlive, rfl, p, q, ?_⟩
    have hcreated := congrArg Ledger.tupleCreated (hledger.trans (tally_cursor (y := some here'.1) hnoted.closed))
    exact (hnoted.ledger.trans hcreated).trans (tupleCreated_tally rfl)

theorem Cursor.NotesOpening.watched {id : Nat} {onIndex : Bool} {m : Action Database Cursor}
    (h : NotesOpening id onIndex m) (deed : Except Error Unit → Deed Unit) {more : List Cursor} {live : Nat} :
    Tells ((tallyWatch tuples cursors).idle more live) m
      (fun r told => told = [deed (r.map (tallyWatch tuples cursors).name)])
      ((tallyWatch tuples cursors).opened more live) := by
  rintro made db ⟨p, q, hledger⟩
  have hopened := h db
  refine ⟨_, rfl, ?_⟩
  rcases hm : m db with ⟨e | c, db'⟩ <;> rw [hm] at hopened
  · exact ⟨p, q, hopened.2.1.trans hledger⟩
  · obtain ⟨-, -, hopen, -, hcounted, -⟩ := hopened
    exact ⟨p, q, (hcounted.trans (congrArg Ledger.cursorOpened hledger)).trans (cursorOpened_tally hopen)⟩

/-- **Whatever the engine is asked for, the tally is kept.** -/
theorem watched_tally (txn : Transaction) (tuples : List (Option Tuple)) (cursors : List (Option Cursor)) :
    engine.Watched (tallyWatch tuples cursors) txn where
  perm hperm := fun ⟨p, q, hledger⟩ => ⟨p, q, hledger.trans (tally_perm .rfl ((hperm.map some).append_right cursors))⟩
  openTable schema _ _ := (Cursor.notesOpening_create _ schema none).watched (.openTable schema.name)
  openIndex table index _ _ := (Cursor.notesOpening_createOnIndex _ table index).watched .openIndex
  setLockMode mode := (Cursor.notes_setLockMode mode).asked
  lock mode := (Cursor.notes_lock mode).asked
  setClusterAccess := Cursor.notes_setClusterAccess.asked
  searchTuple key := (Cursor.notesTuple_searchTuple key).watched
  readTuple := Cursor.notesTuple_readTuple.watched
  search tuple mode := (Cursor.notes_search tuple mode).asked
  readRow := Cursor.rowNotes_readRow.asked
  insertRow cells := (Cursor.rowNotes_insertRow cells).asked
  updateRow cells := (Cursor.rowNotes_updateRow cells).asked
  deleteRow := Cursor.notes_deleteRow.asked
  advance direction := (Cursor.notes_advance direction).asked
  close := fun _ _ _ _ here ⟨_, p, q, hledger⟩ => ⟨_, rfl, rfl, p, q, Cursor.tallied_close here _ _ p q hledger⟩
  tupleReleased := fun ⟨p, q, hledger⟩ =>
    ⟨p + 1, q, ((congrArg Ledger.tupleDisposed hledger).trans (tupleDisposed_tally rfl rfl)).trans tally_no_tuple⟩
  letGo := fun ⟨p, q, hledger⟩ => ⟨p, q + 1, (Cursor.ledger_release rfl hledger).trans tally_no_cursor⟩

theorem tally_of_atProgress {made : List (Deed Unit)} {x : Progress Cursor × Database}
    (h : (tallyWatch tuples cursors).atProgress [] 0 made x) : Progress.Live x.1 ∧ ∃ p q, x.2.ledger =
      tally (x.1.tuples.map some ++ tuples) (x.1.cursors.map some ++ cursors) p q := by
  obtain ⟨progress, db⟩ := x
  cases progress with
  | closed => exact ⟨fun _ ht => (by cases ht), h⟩
  | running held row =>
    obtain ⟨hlive, -, p, q, hledger⟩ := h
    rw [List.append_nil] at hledger
    exact ⟨List.forall_mem_singleton.2 hlive, p, q, hledger.trans (tally_tuple hlive)⟩

theorem atProgress_of_tally {progress : Progress Cursor} {db : Database} (hlive : Progress.Live progress)
    (hledger : db.ledger = tally (progress.tuples.map some ++ tuples) (progress.cursors.map some ++ cursors) p q) :
    (tallyWatch tuples cursors).atProgress [] 0 [] (progress, db) := by
  cases progress with
  | closed => exact ⟨p, q, hledger⟩
  | running held row =>
    have htuple : held.tuple.disposed = false := hlive _ (List.mem_singleton_self _)
    refine ⟨htuple, rfl, p, q, ?_⟩
    rw [List.append_nil]
    exact hledger.trans (tally_tuple htuple.symm)

/-! ## The desk -/

theorem perm_place {l : List α} {i : Nat} {a : α} (h : l[i]? = some a) :
    ∃ rest, l.Perm (a :: rest) ∧ ∀ b, (l.set i b).Perm (b :: rest) := by
  obtain ⟨hi, rfl⟩ := List.getElem?_eq_some_iff.1 h
  exact ⟨l.eraseIdx i, (List.getElem_cons_eraseIdx_perm hi).symm, List.set_perm_cons_eraseIdx hi⟩

namespace Desk

/-- **The ledger is that of all that the client has taken**, and of so many tuples and cursors that have come and
gone. -/
structure Counted (p q : Nat) (d : Desk) : Prop where
  ledger : d.db.ledger = tally d.tuplesTaken d.cursorsTaken p q
  live : ∀ scan ∈ d.scans, Progress.Live scan.progress

variable {d : Desk} {i j : Nat}

theorem perm_cursor {c : Cursor} (h : d.cursor? i = some c) : ∃ rest, d.cursorsTaken.Perm (some c :: rest) ∧
    ∀ db x, ({ d with db, cursors := d.cursors.set i x } : Desk).cursorsTaken.Perm (x :: rest) := by
  obtain ⟨rest, hrest, hset⟩ := perm_place (Option.join_eq_some_iff.1 h)
  exact ⟨_, hrest.append_right _, fun db x => (hset x).append_right _⟩

theorem perm_tuple {tuple : Tuple} (h : d.tuple? i = some tuple) : ∃ rest, d.tuplesTaken.Perm (some tuple :: rest) ∧
    ∀ db x, ({ d with db, tuples := d.tuples.set i x } : Desk).tuplesTaken.Perm (x :: rest) := by
  obtain ⟨rest, hrest, hset⟩ := perm_place (Option.join_eq_some_iff.1 h)
  exact ⟨_, hrest.append_right _, fun db x => (hset x).append_right _⟩

theorem perm_scans {scan : Scan Cursor} {scans rest : List (Scan Cursor)} (h : scans.Perm (scan :: rest)) (d : Desk) :
    ({ d with scans } : Desk).tuplesTaken.Perm (scan.progress.tuples.map some ++ { d with scans := rest }.tuplesTaken) ∧
      ({ d with scans } : Desk).cursorsTaken.Perm
        (scan.progress.cursors.map some ++ { d with scans := rest }.cursorsTaken) := by
  constructor <;>
  · refine ((h.flatMap_right _).append_left _).trans ?_
    rw [List.flatMap_cons]
    exact List.perm_append_comm_assoc _ _ _

namespace Counted

theorem onDatabase (h : d.Counted p q) {m : Action Database α} (hm : ∀ db, (m db).2.ledger = db.ledger) :
    (d.onDatabase m).Counted p q := ⟨(hm d.db).trans h.ledger, h.live⟩

theorem takeCursor (h : d.Counted p q) {id : Nat} {onIndex : Bool} {m : Action Database Cursor}
    (hm : Cursor.NotesOpening id onIndex m) : (d.takeCursor m).Counted p q := by
  have hopened := hm d.db
  unfold Desk.takeCursor
  rcases hms : m d.db with ⟨e | c, db⟩ <;> rw [hms] at hopened
  · exact ⟨hopened.2.1.trans h.ledger, h.live⟩
  · obtain ⟨-, -, hopen, -, hcounted, -⟩ := hopened
    refine ⟨?_, h.live⟩
    have hperm : (some c :: d.cursorsTaken).Perm
        ({ d with db, cursors := d.cursors ++ [some c] } : Desk).cursorsTaken :=
      ((List.perm_append_singleton _ _).symm).append_right _
    have hledger := (hcounted.trans (congrArg Ledger.cursorOpened h.ledger)).trans (cursorOpened_tally hopen)
    exact hledger.trans (tally_perm .rfl hperm)

theorem onCursor (h : d.Counted p q) (i : Nat) {m : Action (Cursor × Database) α} (hm : Cursor.Tallied m) :
    (d.onCursor i m).Counted p q := by
  unfold Desk.onCursor
  cases hc : d.cursor? i with
  | none => exact h
  | some c =>
    obtain ⟨rest, hrest, hset⟩ := perm_cursor hc
    have hledger := hm (c, d.db) _ _ p q (h.ledger.trans (tally_perm .rfl hrest))
    exact ⟨hledger.trans (tally_perm .rfl (hset _ _).symm), h.live⟩

theorem takeTuple (h : d.Counted p q) (i : Nat) {m : Action (Cursor × Database) Tuple} (hm : Cursor.NotesTuple m) :
    (d.takeTuple i m).Counted p q := by
  unfold Desk.takeTuple
  cases hc : d.cursor? i with
  | none => exact h
  | some c =>
    obtain ⟨rest, hrest, hset⟩ := perm_cursor hc
    have hledger := h.ledger.trans (tally_perm .rfl hrest)
    have hmade := hm (c, d.db)
    dsimp only
    rcases hms : m (c, d.db) with ⟨e | tuple, c', db⟩ <;> rw [hms] at hmade
    · exact ⟨(hmade.tallied hledger).trans (tally_perm .rfl (hset _ _).symm), h.live⟩
    · obtain ⟨hlive, hnoted⟩ := hmade
      refine ⟨?_, h.live⟩
      have hperm : (some tuple :: d.tuplesTaken).Perm
          ({ d with db, tuples := d.tuples ++ [some tuple] } : Desk).tuplesTaken :=
        ((List.perm_append_singleton _ _).symm).append_right _
      have hcreated := congrArg Ledger.tupleCreated (hledger.trans (tally_cursor (y := some c') hnoted.closed))
      have hcounted := (hnoted.ledger.trans hcreated).trans (tupleCreated_tally hlive)
      exact hcounted.trans (tally_perm hperm (hset db _).symm)

theorem onTuple (h : d.Counted p q) (i : Nat) {m : Action (Tuple × Database) α} (hm : TupleTallied m) :
    (d.onTuple i m).Counted p q := by
  unfold Desk.onTuple
  cases ht : d.tuple? i with
  | none => exact h
  | some tuple =>
    obtain ⟨rest, hrest, hset⟩ := perm_tuple ht
    have hledger := hm (tuple, d.db) _ _ p q (h.ledger.trans (tally_perm hrest .rfl))
    exact ⟨hledger.trans (tally_perm (hset _ _).symm .rfl), h.live⟩

theorem onRow (h : d.Counted p q) (i j : Nat) {mark : Option Mark} {m : Action (Tuple × Cursor × Database) α}
    (hm : Cursor.RowNotes mark m) : (d.onRow i j m).Counted p q := by
  unfold Desk.onRow
  cases hc : d.cursor? i with
  | none => exact h
  | some c =>
    cases ht : d.tuple? j with
    | none => exact h
    | some tuple =>
      obtain ⟨restTuples, htuples, hsetTuple⟩ := perm_tuple ht
      obtain ⟨restCursors, hcursors, hsetCursor⟩ := perm_cursor hc
      obtain ⟨hdisposed, hnoted⟩ := hm tuple (c, d.db)
      have hledger := (hnoted.tallied (h.ledger.trans (tally_perm htuples hcursors))).trans (tally_tuple
        (y := some (m (tuple, c, d.db)).2.1) hdisposed)
      exact ⟨hledger.trans (tally_perm (hsetTuple d.db _).symm (hsetCursor d.db _).symm), h.live⟩

theorem letGoCursor (h : d.Counted p q) (i : Nat) : (d.letGoCursor i).Counted p q := by
  unfold Desk.letGoCursor
  cases hc : d.cursor? i with
  | none => exact h
  | some c =>
    obtain ⟨rest, hrest, hset⟩ := perm_cursor hc
    have hledger := Cursor.ledger_release (x := none) rfl (h.ledger.trans (tally_perm .rfl hrest))
    exact ⟨hledger.trans (tally_perm .rfl (hset d.db none).symm), h.live⟩

theorem letGoTuple (h : d.Counted p q) (i : Nat) : (d.letGoTuple i).Counted p q := by
  unfold Desk.letGoTuple
  cases ht : d.tuple? i with
  | none => exact h
  | some tuple =>
    obtain ⟨rest, hrest, hset⟩ := perm_tuple ht
    have hledger := ledger_letGoTuple (h.ledger.trans (tally_perm hrest .rfl))
    exact ⟨hledger.trans (tally_perm (hset d.db none).symm .rfl), h.live⟩

theorem request (h : d.Counted p q) {m : Action Database α} {Q : Except Error α → List (Deed Unit) → Prop}
    (hm : ∀ tuples cursors, Tells ((tallyWatch tuples cursors).idle [] 0) m Q) :
    ∃ p q, (d.onDatabase m).Counted p q := by
  obtain ⟨-, -, p', q', hledger⟩ := hm d.tuplesTaken d.cursorsTaken [] d.db ⟨p, q, h.ledger⟩
  exact ⟨p', q', hledger, h.live⟩

theorem forEach {β : Type} (h : d.Counted p q) (txn : Transaction) (plan : Plan) (look : β → Row → β) (notes : β) :
    ∃ p q, ({ d with db := (Scan.forEach engine txn plan look (notes, d.db)).2.2 } : Desk).Counted p q := by
  obtain ⟨-, -, p', q', hledger⟩ := (watched_tally txn d.tuplesTaken d.cursorsTaken).forEach plan look [] 0 []
    (notes, d.db) ⟨p, q, h.ledger⟩
  exact ⟨p', q', hledger, h.live⟩

theorem takeScan (h : d.Counted p q) (txn : Transaction) (plan : Plan) (write : Bool) :
    ∃ p q, (d.takeScan (Scan.open engine txn plan write)).Counted p q := by
  have hidle : (tallyWatch d.tuplesTaken d.cursorsTaken).idle [] 0 [] d.db := ⟨p, q, h.ledger⟩
  obtain ⟨told, -, hafter⟩ := (watched_tally txn _ _).open plan write [] d.db hidle
  unfold Desk.takeScan
  rcases hopen : Scan.open engine txn plan write d.db with ⟨e | scan, db⟩ <;> rw [hopen] at hafter
  · obtain ⟨p', q', hledger⟩ := hafter
    exact ⟨p', q', hledger, h.live⟩
  · obtain ⟨hlive, p', q', hledger⟩ := tally_of_atProgress hafter
    obtain ⟨htuples, hcursors⟩ := perm_scans (List.perm_append_singleton scan d.scans) d
    refine ⟨p', q', hledger.trans (tally_perm htuples.symm hcursors.symm), ?_⟩
    exact List.forall_mem_append.2 ⟨h.live, List.forall_mem_singleton.2 hlive⟩

/-- What a scan takes and releases while it is used comes and goes, or is what it holds. -/
theorem onScan (h : d.Counted p q) (i : Nat) {m : Action (Scan Cursor × Database) α}
    (hm : ∀ tuples cursors here, (tallyWatch tuples cursors).atProgress [] 0 [] (Scan.view here) →
      ∃ made, (tallyWatch tuples cursors).atProgress [] 0 made (Scan.view (m here).2)) :
    ∃ p q, (d.onScan i m).Counted p q := by
  unfold Desk.onScan
  cases hscan : d.scans[i]? with
  | none => exact ⟨p, q, h⟩
  | some scan =>
    obtain ⟨rest, hrest, hset⟩ := perm_place hscan
    obtain ⟨htuples, hcursors⟩ := perm_scans hrest d
    have hledger := h.ledger.trans (tally_perm htuples hcursors)
    have hlive := h.live scan (List.mem_of_getElem? hscan)
    -- what the scan holds is taken from the desk, and what it holds afterwards is put back
    obtain ⟨made, hafter⟩ := hm _ _ (scan, d.db) (atProgress_of_tally hlive hledger)
    obtain ⟨hlive', p', q', hledger'⟩ := tally_of_atProgress hafter
    obtain ⟨htuples', hcursors'⟩ := perm_scans (hset (m (scan, d.db)).2.1) d
    refine ⟨p', q', hledger'.trans (tally_perm htuples'.symm hcursors'.symm), fun other hmem => ?_⟩
    rcases List.mem_or_eq_of_mem_set hmem with hmem | rfl
    · exact h.live other hmem
    · exact hlive'

end Counted
end Desk

/-! ## Runs -/

namespace Handling

variable {handling : Handling ρ} {d : Desk}

/-- **What is done directly with handles is counted handle by handle.** -/
theorem counted_direct (hdirect : handling.Direct) (h : d.Counted p q) : (handling.step d).Counted p q := by
  cases handling with
  | createTable schema =>
    refine h.onDatabase fun db => ?_
    unfold Database.createTable
    split <;> rfl
  | dropTable name =>
    refine h.onDatabase fun db => ?_
    unfold Database.dropTable
    split <;> rfl
  | truncateTable name =>
    refine h.onDatabase fun db => ?_
    unfold Database.truncateTable
    split <;> rfl
  | begin level => exact h.onDatabase fun db => rfl
  | commit txn | rollback txn =>
    refine h.onDatabase fun db => ?_
    show (Database.finish _ _ db).2.ledger = _
    unfold Database.finish
    dsimp only
    split <;> rfl
  | openTable txn schema => exact h.takeCursor (Cursor.notesOpening_create txn.id schema none)
  | openIndex txn cursor index =>
    unfold step
    dsimp only
    split
    · exact h.takeCursor (Cursor.notesOpening_createOnIndex txn.id _ index)
    · exact h
  | setLockMode cursor mode => exact h.onCursor cursor (Cursor.notes_setLockMode mode).tallied
  | lock cursor mode => exact h.onCursor cursor (Cursor.notes_lock mode).tallied
  | setClusterAccess cursor => exact h.onCursor cursor Cursor.notes_setClusterAccess.tallied
  | searchTuple cursor key => exact h.takeTuple cursor (Cursor.notesTuple_searchTuple key)
  | readTuple cursor => exact h.takeTuple cursor Cursor.notesTuple_readTuple
  | search cursor tuple mode => exact h.onRow cursor tuple (Cursor.rowNotes_searchHeld mode)
  | readRow cursor tuple => exact h.onRow cursor tuple Cursor.rowNotes_readRow
  | insertRow cursor tuple cells => exact h.onRow cursor tuple (Cursor.rowNotes_insertRow cells)
  | updateRow cursor tuple cells => exact h.onRow cursor tuple (Cursor.rowNotes_updateRow cells)
  | deleteRow cursor => exact h.onCursor cursor Cursor.notes_deleteRow.tallied
  | advance cursor direction => exact h.onCursor cursor (Cursor.notes_advance direction).tallied
  | close cursor => exact h.onCursor cursor Cursor.tallied_close
  | letGoCursor cursor => exact h.letGoCursor cursor
  | setValues tuple cells => exact h.onTuple tuple (tallied_setValues cells)
  | clear tuple => exact h.onTuple tuple (tallied_setValues [])
  | dispose tuple => exact h.onTuple tuple tallied_dispose
  | letGoTuple tuple => exact h.letGoTuple tuple
  | request | openScan | pull | visit | closeScan | forEach | fold => exact hdirect.elim

/-- **Every handling keeps the ledger exact.** -/
theorem counted (handling : Handling ρ) (h : d.Counted p q) :
    ∃ p' q', (handling.step d).Counted p' q' ∧ (handling.Direct → p' = p ∧ q' = q) := by
  by_cases hdirect : handling.Direct
  · exact ⟨p, q, counted_direct hdirect h, fun _ => ⟨rfl, rfl⟩⟩
  -- requests and scans take handles that never lie on the desk, so more may have come and gone
  suffices hcounted : ∃ p' q', (handling.step d).Counted p' q' by
    obtain ⟨p', q', hstep⟩ := hcounted
    exact ⟨p', q', hstep, fun h => absurd h hdirect⟩
  cases handling with
  | request txn schema asked => exact h.request fun _ _ => (watched_tally txn _ _).perform schema asked [] 0
  | fold txn plan f initial => exact h.request fun _ _ => (watched_tally txn _ _).fold plan f initial [] 0
  | forEach txn plan look notes => exact h.forEach txn plan look notes
  | openScan txn plan write => exact h.takeScan txn plan write
  | pull scan =>
    refine h.onScan scan fun tuples cursors here hat => ?_
    obtain ⟨told, -, hafter⟩ := (watched_tally default tuples cursors).next [] 0 [] here hat
    exact ⟨_, hafter⟩
  | visit scan txn decide =>
    refine h.onScan scan fun tuples cursors here hat => ?_
    obtain ⟨-, -, told, more, closing, -, -, -, hafter⟩ := (watched_tally txn tuples cursors).visit
      (fun row (notes : Unit) => (decide row, notes)) [] 0 [] ((), here) hat
    exact ⟨_, hafter⟩
  | closeScan scan =>
    refine h.onScan scan fun tuples cursors here hat => ?_
    obtain ⟨told, -, hafter⟩ := (watched_tally default tuples cursors).close_pulls [] 0 [] here hat
    exact ⟨_, hafter⟩
  | _ => exact absurd True.intro hdirect

theorem counted_all : ∀ (handlings : List (Handling ρ)) {d : Desk} {p q : Nat}, d.Counted p q → ∃ p' q',
    (handlings.foldl (fun d handling => handling.step d) d).Counted p' q' ∧
      ((∀ handling ∈ handlings, handling.Direct) → p' = p ∧ q' = q)
  | [], _, p, q, h => ⟨p, q, h, fun _ => ⟨rfl, rfl⟩⟩
  | handling :: handlings, _, _, _, h => by
    obtain ⟨p, q, hstep, hdirect⟩ := counted handling h
    obtain ⟨p', q', hrest, hdirects⟩ := counted_all handlings hstep
    refine ⟨p', q', hrest, fun hall => ?_⟩
    obtain ⟨rfl, rfl⟩ := hdirects fun other hmem => hall other (List.mem_cons_of_mem _ hmem)
    exact hdirect (hall handling List.mem_cons_self)

end Handling

namespace Desk

/-- **The differences of the ledger are what has not been released**, and it never counts more releases than handles. -/
structure Exact (d : Desk) : Prop where
  tuples : d.db.ledger.liveTuples = d.liveTuples
  cursors : d.db.ledger.openCursors = d.openCursors
  disposed_le : d.db.ledger.tuplesDisposed ≤ d.db.ledger.tuplesCreated
  closed_le : d.db.ledger.cursorsClosed ≤ d.db.ledger.cursorsOpened

/-- What has been taken has been released, or not. -/
theorem length_eq_released_add {β : Type} (released : β → Bool) (l : List (Option β)) :
    l.length = l.countP (Option.all released) + l.countP (Option.any fun b => !released b) := by
  rw [List.length_eq_countP_add_countP (Option.all released)]
  congr 2
  funext x
  cases x <;> simp

theorem Counted.exact {d : Desk} (h : d.Counted p q) : d.Exact := by
  have htuples := length_eq_released_add Tuple.disposed d.tuplesTaken
  have hcursors := length_eq_released_add Cursor.closed d.cursorsTaken
  constructor <;> rw [h.ledger] <;>
    simp only [tally, Ledger.liveTuples, Ledger.openCursors, liveTuples, openCursors] <;> omega

theorem counted_run (handlings : List (Handling ρ)) : ∃ p q, (run handlings).Counted p q ∧
    ((∀ handling ∈ handlings, handling.Direct) → p = 0 ∧ q = 0) :=
  Handling.counted_all handlings ⟨rfl, fun _ hmem => by cases hmem⟩

end Desk

/-! ## The whole ledger -/

/-- **The ledger is exact.**  Whatever a client does, it counts every handle that has been taken once, and every one of
them that has been released or let go of once; a handle that cannot be taken is not counted, and one that has been
released refuses further work. -/
theorem ledger_is_exact :
    (∀ {ρ : Type} (handlings : List (Handling ρ)), (Desk.run handlings).Exact ∧ ∃ p q,
      (Desk.run handlings).db.ledger = tally (Desk.run handlings).tuplesTaken (Desk.run handlings).cursorsTaken p q ∧
        ((∀ handling ∈ handlings, handling.Direct) → p = 0 ∧ q = 0)) ∧
    (∀ {txn : Transaction} {schema : TableSchema} {db db' : Database} {e : Error},
      engine.openTable txn schema db = (.error e, db') → db' = db) ∧
    (∀ {txn : Transaction} {c : Cursor} {index : Index} {db db' : Database} {e : Error},
      engine.openIndex txn c index db = (.error e, db') → db' = db) ∧
    (∀ {tuple : Tuple}, tuple.disposed = true → SpentTuple tuple) ∧
    ∀ {c : Cursor}, c.closed = true → SpentCursor c := by
  refine ⟨fun handlings => ?_, openTable_fails, openIndex_fails, spent_of_disposed, spent_of_closed⟩
  obtain ⟨p, q, hcounted, hdirect⟩ := Desk.counted_run handlings
  exact ⟨hcounted.exact, p, q, hcounted.ledger, hdirect⟩

open Database

/-- Two cursors and three tuples are taken.  One tuple is disposed of twice and one cursor closed twice, before and
after the transaction is committed.  Then both are let go of, another tuple is let go of alive, and no cursor can be
opened any more. -/
def dayAtDesk : List (Handling Unit) :=
  [.createTable people, .begin .readCommitted, .openTable ⟨1, .readCommitted⟩ people,
    .openTable ⟨1, .readCommitted⟩ people, .readTuple 0, .searchTuple 1 [], .readTuple 1, .dispose 0, .close 0,
    .commit ⟨1, .readCommitted⟩, .dispose 0, .close 0, .letGoTuple 0, .letGoTuple 1,
    .openTable ⟨1, .readCommitted⟩ people, .letGoCursor 0]

theorem ledger_is_exact_day : (Desk.run dayAtDesk).db.ledger = ⟨3, 2, 2, 1⟩ ∧ (Desk.run dayAtDesk).liveTuples = 1 ∧
    (engine.openTable ⟨1, .readCommitted⟩ people (Desk.run dayAtDesk).db).2 = (Desk.run dayAtDesk).db ∧
    (engine.openIndex ⟨1, .readCommitted⟩ default default (Desk.run dayAtDesk).db).2 = (Desk.run dayAtDesk).db ∧
    SpentTuple { layout := .clustered, columns := [], cells := [], disposed := true } ∧
    SpentCursor { id := 1, transaction := 1, schema := people, index := none, closed := true } := by
  obtain ⟨hrun, hopen, hopenIndex, hspent, hclosed⟩ := ledger_is_exact
  have hledger : (Desk.run dayAtDesk).db.ledger = ⟨3, 2, 2, 1⟩ := by cbv
  have hlive := (hrun dayAtDesk).1.tuples
  rw [hledger] at hlive
  refine ⟨hledger, hlive.symm, ?_, ?_, hspent rfl, hclosed rfl⟩
  · exact hopen (e := .engine .transactionClosed) (Prod.ext (by cbv) rfl)
  · exact hopenIndex (e := .engine .indexNotFound) (Prod.ext (by cbv) rfl)

end Memory
end RowStore

import RowStore.Proofs.ByKeyDeeds
import RowStore.Proofs.CallFrames
import RowStore.Proofs.CursorLogs
import RowStore.Proofs.PopulatedRuns

/-!
# Writes that fail

A write that fails leaves all tables as they were, committed or worked on (`SameTables`), and its cursor where it was
(`failed_writes_spare_tables`).  For a replacement that is because the old row, once taken out, can always be put back
(`Table.Consistent.insert_of_remove`).  For a request it is because nothing can fail once its one write has succeeded: a
live tuple can be released and a cursor can be closed.
-/
namespace RowStore
namespace Memory

open Attempt

variable {α : Type}

namespace Table

variable {t : Table} {key : Key} {row old : List Cell}

/-- Work that fails leaves the table as it was. -/
def Spared (work : Action Table α) (t : Table) : Prop := ∀ e, (work t).1 = .error e → (work t).2 = t

theorem spared_insert (row : List Cell) (t : Table) : Spared (insert row) t := by
  intro e h
  rw [insert_apply] at h ⊢
  cases hrejection : t.rejection? row with
  | none =>
    rw [hrejection] at h
    cases h
  | some status => rfl

theorem spared_remove (key : Key) (t : Table) : Spared (remove key) t := by
  intro e h
  rw [remove_apply] at h ⊢
  cases hrow : t.rows.get? key with
  | none => rfl
  | some row =>
    rw [hrow] at h
    cases h

theorem Consistent.spared_replace (h : t.Consistent) (hnames : DistinctNames t.schema.secondary) (key : Key)
    (row : List Cell) : Spared (replace key row) t := by
  intro e he
  rw [replace_apply h hnames] at he ⊢
  by_cases hfits : t.fits row = true
  · rw [if_pos hfits] at he ⊢
    cases hold : t.rows.get? key with
    | none => rfl
    | some old =>
      rw [hold] at he
      dsimp only at he ⊢
      cases hrejection : (t.withoutRow key old).rejection? row with
      | none =>
        rw [hrejection] at he
        cases he
      | some status => rfl
  · rw [if_neg hfits]

/-- **A row that was taken out can be put back**, and the table is what it was. -/
theorem Consistent.insert_of_remove (h : t.Consistent) (hnames : DistinctNames t.schema.secondary) {t' : Table}
    (hremove : remove key t = (.ok old, t')) : insert old t' = (.ok (), t) := by
  rw [remove_apply] at hremove
  cases hrow : t.rows.get? key with
  | none =>
    rw [hrow] at hremove
    cases hremove
  | some row =>
    rw [hrow] at hremove
    cases hremove
    -- the row fitted before, and its keys have gone with it, so none of the checks can fail
    have hrejection : (t.withoutRow key old).rejection? old = none :=
      rejection?_eq_none_iff.2 ⟨h.fits _ (h.mem_of_get? hrow).1, h.get?_withoutRow hrow, h.refusal?_withoutRow hnames hrow⟩
    rw [insert_apply, hrejection]
    exact congrArg _ (h.withRow_withoutRow hnames hrow)

end Table

/-- The cursor by which a call writes. -/
def Call.writer? : Call → Option Cursor
  | insertRow c _ _ | updateRow c _ _ | deleteRow c => some c
  | _ => none

namespace Database

variable {db db' db'' : Database} {id : Nat} {name : String} {call : Call} {e : Error}

/-! ## Databases with the same tables -/

/-- All tables, committed or worked on by whatever transaction, are as they were, with their rows and all their indexes. -/
structure SameTables (db db' : Database) : Prop where
  committed : db'.tables = db.tables
  worked : ∀ id name, (db'.copy? id name).map (·.table) = (db.copy? id name).map (·.table)

theorem SameTables.refl (db : Database) : SameTables db db := ⟨rfl, fun _ _ => rfl⟩

theorem SameTables.trans (h : SameTables db db') (h' : SameTables db' db'') : SameTables db db'' :=
  ⟨h'.committed.trans h.committed, fun id name => (h'.worked id name).trans (h.worked id name)⟩

/-- What a transaction works on is what its copies and the committed tables are. -/
theorem sameTables_setWorkspace {w : Workspace} (h : ∀ name, ((db.setWorkspace id w).copy? id name).map (·.table) =
    (db.copy? id name).map (·.table)) : SameTables db (db.setWorkspace id w) := by
  refine ⟨rfl, fun other name => ?_⟩
  by_cases heq : other = id
  · rw [heq]
    exact h name
  · unfold copy?
    rw [workspace_setWorkspace_of_ne db heq]
    rfl

theorem sameTables_bookkeeping {w : Workspace} (hcopies : w.copies = (db.workspace id).copies) :
    SameTables db (db.setWorkspace id w) := by
  refine sameTables_setWorkspace fun name => ?_
  unfold copy?
  rw [workspace_setWorkspace, hcopies]
  rfl

/-- **Work that leaves the table as it was makes at most a copy of it.** -/
theorem sameTables_onTable {work : Action Table α} (write : Bool)
    (hwork : (db.workspace id).state = .active → ∀ copy, db.copy? id name = some copy →
      (work copy.table).2 = copy.table) : SameTables db (onTable id name write work db).2 := by
  by_cases hactive : (db.workspace id).state = .active
  · rw [onTable_of_active hactive]
    cases hcopy : db.copy? id name with
    | none => exact .refl db
    | some copy =>
      refine sameTables_setWorkspace fun name' => ?_
      by_cases heq : name = name'
      · subst heq
        rw [hcopy, copy?, workspace_setWorkspace, OrderedMap.get?_insert_self]
        exact congrArg some (hwork hactive copy hcopy)
      · rw [copy?, workspace_setWorkspace, OrderedMap.get?_insert_of_ne heq]
        rfl
  · rw [onTable_of_not_active hactive]
    exact .refl db

/-! ## Calls that only look -/

/-- One database next to itself, while a transaction looks at a table. -/
def lookBond (db : Database) : Bond := .keeping (SameTables db) True fun _ work => ∀ t, (work t).2 = t

theorem links_lookBond (db : Database) (id : Nat) (name : String) : (lookBond db).Links id id name :=
  Bond.links_keeping
    (fun write _ hlook _ h => ⟨fun _ _ => True.intro, h.trans (sameTables_onTable write fun _ _ _ => hlook _)⟩)
    (fun _ hlook => hlook) (fun _ _ h _ hcopies => h.trans (sameTables_bookkeeping hcopies))
    fun _ _ h => ⟨h.committed, h.worked⟩

/-- **A call that writes nothing leaves all tables as they were.** -/
theorem sameTables_of_look (hon : call.On id name) (hlook : ¬call.MayWrite) (db : Database) :
    SameTables db (call.effect db) :=
  Bond.keeps_effect (links_lookBond db id name) (Call.means_of_forall fun hwrites => absurd hwrites hlook) hon (.refl db)

/-! ## Writes by a cursor -/

theorem All.copy? {P : String → Table → Prop} (h : db.All P) {copy : Copy} (hcopy : db.copy? id name = some copy) :
    P name copy.table := by
  rcases Option.or_eq_some_iff.1 hcopy with hcopied | ⟨-, hcommitted⟩
  · exact h.copy hcopied
  · obtain ⟨t, ht, rfl⟩ := Option.map_eq_some_iff.1 hcommitted
    exact h.get? ht

variable {c : Cursor} {tuple : Tuple} {cells : List Cell}

/-- A write that fails on the table leaves it and the cursor as they were. -/
theorem spared_write {work : Action Table α} {operation : Operation}
    (hwork : ∀ copy, db.copy? c.transaction c.schema.name = some copy → Table.Spared work copy.table)
    (h : ((Cursor.onTable true work >>= fun _ => Cursor.log operation) (c, db)).1 = .error e) :
    ((Cursor.onTable true work >>= fun _ => Cursor.log operation) (c, db)).2.1 = c ∧
      SameTables db ((Cursor.onTable true work >>= fun _ => Cursor.log operation) (c, db)).2.2 := by
  have honTable : Cursor.onTable true work (c, db) = ((onTable c.transaction c.schema.name true work db).1, c,
      (onTable c.transaction c.schema.name true work db).2) := rfl
  rw [bind_apply, honTable] at h ⊢
  cases hr : (onTable c.transaction c.schema.name true work db).1 with
  | ok a =>
    rw [hr] at h
    cases h
  | error e' =>
    refine ⟨rfl, sameTables_onTable true fun hactive copy hcopy => ?_⟩
    rw [onTable_of_active hactive, hcopy] at hr
    exact hwork copy hcopy e' hr

theorem spared_checked {β σ : Type} {P : σ → Prop} {r : Except Error β} {f : β → Action σ α} {s : σ} (hs : P s)
    (hf : ∀ b, (f b s).1 = .error e → P (f b s).2) (h : ((Attempt.ofExcept r >>= f) s).1 = .error e) :
    P ((Attempt.ofExcept r >>= f) s).2 := by
  cases r with
  | error e' => exact hs
  | ok b => exact hf b h

/-- The cursor and the tables are as they were. -/
def Spares (c : Cursor) (db : Database) (here : Cursor × Database) : Prop := here.1 = c ∧ SameTables db here.2

theorem spared_staged {work : List Cell → Action Table α} {operation : Operation}
    (hwork : ∀ copy, db.copy? c.transaction c.schema.name = some copy → Table.Spared (work cells) copy.table)
    (h : ((Cursor.stage cells >>= fun staged => Attempt.below (ρ := Tuple)
      (Cursor.onTable true (work staged) >>= fun _ => Cursor.log operation)) (tuple, c, db)).1 = .error e) :
    Spares c db ((Cursor.stage cells >>= fun staged => Attempt.below (ρ := Tuple)
      (Cursor.onTable true (work staged) >>= fun _ => Cursor.log operation)) (tuple, c, db)).2.2 := by
  rw [bind_apply, Cursor.stage_apply] at h ⊢
  cases hdisposed : tuple.disposed with
  | true => exact ⟨rfl, .refl db⟩
  | false =>
    rw [hdisposed] at h
    exact spared_write hwork h

/-- **A write of the engine that fails leaves the cursor and all tables as they were.** -/
theorem insertRow_spares (h : (Cursor.insertRow cells (tuple, c, db)).1 = .error e) :
    Spares c db (Cursor.insertRow cells (tuple, c, db)).2.2 :=
  spared_checked (P := fun s : Tuple × Cursor × Database => Spares c db s.2) ⟨rfl, .refl db⟩
    (fun _ h => spared_staged (fun _ _ => Table.spared_insert _ _) h) h

theorem updateRow_spares (hdb : db.All Kept) (h : (Cursor.updateRow cells (tuple, c, db)).1 = .error e) :
    Spares c db (Cursor.updateRow cells (tuple, c, db)).2.2 :=
  spared_checked (P := fun s : Tuple × Cursor × Database => Spares c db s.2) ⟨rfl, .refl db⟩
    (fun _ h => spared_checked (P := fun s : Tuple × Cursor × Database => Spares c db s.2) ⟨rfl, .refl db⟩
      (fun key h => spared_staged (fun _ hcopy =>
        (hdb.copy? hcopy).2.2.spared_replace (hdb.copy? hcopy).2.1.indexNames key cells) h) h) h

theorem deleteRow_spares (h : (Cursor.deleteRow (c, db)).1 = .error e) : Spares c db (Cursor.deleteRow (c, db)).2 :=
  spared_checked (P := Spares c db) ⟨rfl, .refl db⟩
    (fun _ h => spared_checked (P := Spares c db) ⟨rfl, .refl db⟩
      (fun key h => spared_write (fun _ _ => Table.spared_remove key _) h) h) h

/-! ## Requests -/

/-- As long as no write has succeeded all tables are as they were, and cursors can always be closed. -/
def tablesWatch (before : Database) : Watch Database Cursor Unit where
  name _ := ()
  holds made _ _ db := db.All Kept ∧ (∀ e, .ask () .close (some e) ∉ made) ∧
    ((∀ d ∈ made, ¬d.Wrote) → SameTables before db)

variable {before : Database} {made : List (Deed Unit)} {d : Deed Unit} {cursors : List Cursor} {tuples : Nat}

/-- A deed that is done goes behind the others. -/
theorem tablesWatch_step (db' : Database) (h : (tablesWatch before).holds made cursors tuples db) (hdb' : db'.All Kept)
    (hclose : ∀ e, d ≠ .ask () .close (some e)) (hsame : ¬d.Wrote → SameTables db db') (cursors' : List Cursor)
    (tuples' : Nat) : (tablesWatch before).holds (made ++ [d]) cursors' tuples' db' := by
  obtain ⟨-, hclosed, hbefore⟩ := h
  refine ⟨hdb', fun e hmem => ?_, fun hwrote => ?_⟩
  · rcases List.mem_append.1 hmem with hmem | hmem
    · exact hclosed e hmem
    · exact hclose e (List.mem_singleton.1 hmem).symm
  · exact (hbefore fun d' hd' => hwrote d' (List.mem_append_left _ hd')).trans
      (hsame (hwrote d (List.mem_append_right _ List.mem_cons_self)))

/-- A call that only looks may be told of. -/
theorem tablesWatch_look (call : Call) (h : (tablesWatch before).holds made cursors tuples db) (hon : call.On id name)
    (hlook : ¬call.MayWrite) (hclose : ∀ e, d ≠ .ask () .close (some e)) (cursors' : List Cursor) (tuples' : Nat) :
    (tablesWatch before).holds (made ++ [d]) cursors' tuples' (call.effect db) :=
  tablesWatch_step _ h (Call.all_effect call.keepsTables_kept h.1) hclose (fun _ => sameTables_of_look hon hlook db) _ _

variable {ask : Ask}

/-- A call on a cursor that only looks. -/
theorem asked_look {m : Action (Cursor × Database) α} (call : Cursor → Call)
    (heffect : ∀ c db, (call c).effect db = (m (c, db)).2.2) (hon : ∀ c, (call c).On c.transaction c.schema.name)
    (hlook : ∀ c, ¬(call c).MayWrite) (hask : ask ≠ .close) : (tablesWatch before).Asked m ask := by
  rintro cursors tuples i made ⟨c, db⟩ ⟨-, hholds⟩
  refine ⟨_, rfl, rfl, ?_⟩
  rw [← heffect]
  exact tablesWatch_look (call c) hholds (hon c) (hlook c) (fun e he => hask (Deed.ask.inj he).2.1) _ _

theorem makes_look {m : Action (Cursor × Database) Tuple} (hlive : Cursor.NotesTuple m)
    (hm : (tablesWatch before).Asked m ask) : (tablesWatch before).Makes m ask := by
  intro cursors tuples i made here hhere
  obtain ⟨told, htold, hafter⟩ := hm cursors tuples i made here hhere
  have hmade := hlive here
  refine ⟨told, htold, ?_⟩
  cases hr : (m here).1 with
  | error e => exact hafter
  | ok tuple =>
    rw [hr] at hmade
    exact ⟨hmade.1, hafter⟩

theorem opened_look {m : Action Database Cursor} (call : Call) (deed : Except Error Unit → Deed Unit)
    (hon : call.On id name) (hlook : ¬call.MayWrite) (heffect : ∀ db, call.effect db = (m db).2)
    (hdeed : ∀ r e, deed r ≠ .ask () .close (some e)) :
    Tells ((tablesWatch before).idle cursors tuples) m (fun r told => told = [deed (r.map fun _ => ())])
      ((tablesWatch before).opened cursors tuples) := by
  intro made db hdb
  refine ⟨_, rfl, ?_⟩
  have hlooked := fun cursors' => tablesWatch_look call (d := deed ((m db).1.map fun _ => ())) hdb hon hlook (hdeed _) cursors'
    tuples
  rw [heffect] at hlooked
  cases hr : (m db).1 with
  | error e =>
    rw [hr] at hlooked
    exact hlooked _
  | ok c =>
    rw [hr] at hlooked
    exact hlooked _

/-- A write that fails leaves all tables as they were. -/
theorem rowAsked_write {m : Action (Tuple × Cursor × Database) Unit} {mark : Option Mark} (hnotes : Cursor.RowNotes mark m)
    (hask : ask.Writes) (call : Tuple → Cursor → Call) (heffect : ∀ t c db, (call t c).effect db = (m (t, c, db)).2.2.2)
    (hspares : ∀ t c db e, db.All Kept → (m (t, c, db)).1 = .error e → Spares c db (m (t, c, db)).2.2) :
    (tablesWatch before).RowAsked m ask := by
  rintro cursors tuples i made ⟨t, c, db⟩ ⟨hlive, -, hholds⟩
  refine ⟨_, rfl, (hnotes t (c, db)).1.trans hlive, rfl, tablesWatch_step _ hholds ?_ (fun e he => ?_) (fun hwrote => ?_) _ _⟩
  · rw [← heffect]
    exact Call.all_effect (call t c).keepsTables_kept hholds.1
  · rw [(Deed.ask.inj he).2.1] at hask
    exact hask
  · cases hr : (m (t, c, db)).1 with
    | error e => exact (hspares t c db e hholds.1 hr).2
    | ok _ =>
      rw [hr] at hwrote
      exact absurd hask hwrote

/-- **The engine is watched.** -/
theorem watched_tables (before : Database) (txn : Transaction) : engine.Watched (tablesWatch before) txn where
  perm _ h := h
  openTable schema _ _ := opened_look (.openTable txn schema) (.openTable schema.name) ⟨rfl, rfl⟩ (fun hw => hw)
    (fun _ => rfl) fun _ _ he => by cases he
  openIndex table index _ _ := opened_look (.openIndex txn table index) .openIndex ⟨rfl, rfl⟩ (fun hw => hw) (fun _ => rfl)
    fun _ _ he => by cases he
  setLockMode mode := asked_look (.setLockMode · mode) (fun _ _ => rfl) (fun _ => ⟨rfl, rfl⟩) (fun _ hw => hw)
    fun he => by cases he
  lock mode := asked_look (.lock · mode) (fun _ _ => rfl) (fun _ => ⟨rfl, rfl⟩) (fun _ hw => hw) fun he => by cases he
  setClusterAccess := asked_look .setClusterAccess (fun _ _ => rfl) (fun _ => ⟨rfl, rfl⟩) (fun _ hw => hw)
    fun he => by cases he
  searchTuple key := makes_look (Cursor.notesTuple_searchTuple key) <|
    asked_look (.searchTuple · key) (fun _ _ => rfl) (fun _ => ⟨rfl, rfl⟩) (fun _ hw => hw) fun he => by cases he
  readTuple := makes_look Cursor.notesTuple_readTuple <|
    asked_look .readTuple (fun _ _ => rfl) (fun _ => ⟨rfl, rfl⟩) (fun _ hw => hw) fun he => by cases he
  search tuple mode := asked_look (.search · tuple mode) (fun _ _ => rfl) (fun _ => ⟨rfl, rfl⟩) (fun _ hw => hw)
    fun he => by cases he
  readRow := by
    rintro cursors tuples i made ⟨t, c, db⟩ ⟨hlive, -, hholds⟩
    refine ⟨_, rfl, (Cursor.rowNotes_readRow t (c, db)).1.trans hlive, rfl,
      tablesWatch_look (.readRow c t) hholds ⟨rfl, rfl⟩ (fun hw => hw) (fun e he => ?_) _ _⟩
    cases he
  insertRow cells := rowAsked_write (Cursor.rowNotes_insertRow cells) True.intro (fun t c => .insertRow c t cells)
    (fun _ _ _ => rfl) fun _ _ _ _ _ => insertRow_spares
  updateRow cells := rowAsked_write (Cursor.rowNotes_updateRow cells) True.intro (fun t c => .updateRow c t cells)
    (fun _ _ _ => rfl) fun _ _ _ _ hkept => updateRow_spares hkept
  deleteRow := by
    rintro cursors tuples i made ⟨c, db⟩ ⟨-, hholds⟩
    refine ⟨_, rfl, rfl, tablesWatch_step _ hholds (Call.all_effect (Call.deleteRow c).keepsTables_kept hholds.1)
      (fun e he => ?_) (fun hwrote => ?_) _ _⟩
    · cases he
    · cases hr : (engine.deleteRow (c, db)).1 with
      | error e => exact (deleteRow_spares hr).2
      | ok _ =>
        rw [hr] at hwrote
        exact absurd True.intro hwrote
  advance direction := asked_look (.advance · direction) (fun _ _ => rfl) (fun _ => ⟨rfl, rfl⟩) (fun _ hw => hw)
    fun he => by cases he
  close := by
    rintro cursors tuples i made ⟨c, db⟩ ⟨-, hholds⟩
    refine ⟨_, rfl, rfl, tablesWatch_look (.closeCursor c) hholds ⟨rfl, rfl⟩ (fun hw => hw) (fun e he => ?_) _ _⟩
    cases he
  tupleReleased h := tablesWatch_step (engine.tupleReleased _) (d := .tupleReleased) h (h.1.ledger _)
    (fun _ he => by cases he) (fun _ => ⟨rfl, fun _ _ => rfl⟩) _ _
  letGo {_ c _ _ _} h := tablesWatch_look (.letGoCursor c) (d := .letGo ()) h ⟨rfl, rfl⟩ (fun hw => hw)
    (fun _ he => by cases he) _ _

/-- **A request that fails leaves all tables as they were.** -/
theorem request_spares (hdb : db.All Kept) (txn : Transaction) (schema : TableSchema) (request : Request)
    (h : (request.perform engine txn schema db).1 = .error e) :
    SameTables db (request.perform engine txn schema db).2 := by
  obtain ⟨told, htold, -, hclosed, hsame⟩ := (watched_tables db txn).perform schema request [] 0 [] db
    ⟨hdb, fun _ hmem => (by cases hmem), fun _ => .refl db⟩
  exact hsame (htold.unwritten h fun _ => hclosed)

/-! ## Writes that fail -/

theorem error_of_map {f : α → Returned} {r : Except Error α} (h : r.map f = .error e) : r = .error e := by
  cases r with
  | ok a => cases h
  | error e' =>
    cases h
    rfl

theorem call_spares (hdb : db.All Kept) (txn : Transaction) (schema : TableSchema) (request : Request)
    {m : Action Database α} {f : α → Reply} {give : α → Returned} (hm : request.perform engine txn schema = f <$> m)
    (h : (Call.plain give m db).1.result = .error e) : SameTables db (Call.plain give m db).2 := by
  have hspares := request_spares (e := e) hdb txn schema request
  rw [hm, map_apply, error_of_map h] at hspares
  exact hspares rfl

/-- **A write that fails leaves all tables and its cursor as they were**, in every database that calls lead to, whatever the
cursor, wherever it rests and whatever the cells or the row.  Whenever a row could be taken out of a table, it can be put
back behind a refused one, and the table is what it was. -/
theorem failed_writes_spare_tables (calls : List Call) :
    (∀ call : Call, call.MayWrite → ∀ e, (call.perform (run calls)).1.result = .error e →
        SameTables (run calls) (call.perform (run calls)).2 ∧ (call.perform (run calls)).1.cursor = call.writer?) ∧
      ∀ id name copy, (run calls).copy? id name = some copy → ∀ key old row t e t',
        Table.remove key copy.table = (.ok old, t) → Table.insert row t = (.error e, t') →
          Table.insert old t' = (.ok (), copy.table) := by
  have hkept : (run calls).All Kept := all_run fun call _ => call.keepsTables_kept
  constructor
  · intro call hwrites e he
    cases call with
    | insertRow c tuple cells =>
      obtain ⟨hcursor, hsame⟩ := insertRow_spares (error_of_map he)
      exact ⟨hsame, congrArg some hcursor⟩
    | updateRow c tuple cells =>
      obtain ⟨hcursor, hsame⟩ := updateRow_spares hkept (error_of_map he)
      exact ⟨hsame, congrArg some hcursor⟩
    | deleteRow c =>
      obtain ⟨hcursor, hsame⟩ := deleteRow_spares (error_of_map he)
      exact ⟨hsame, congrArg some hcursor⟩
    | insert txn schema row => exact ⟨call_spares hkept txn schema (.insert row) rfl he, rfl⟩
    | update txn schema row => exact ⟨call_spares hkept txn schema (.update row) rfl he, rfl⟩
    | insertOrUpdate txn schema row => exact ⟨call_spares hkept txn schema (.insertOrUpdate row) rfl he, rfl⟩
    | delete txn schema key => exact ⟨call_spares hkept txn schema (.delete key) rfl he, rfl⟩
    | _ => exact hwrites.elim
  · intro id name copy hcopy key old row t e t' hremove hinsert
    have hsound := hkept.copy? hcopy
    have hspared : (Table.insert row t).2 = t := Table.spared_insert row t e (by rw [hinsert])
    rw [hinsert] at hspared
    cases hspared
    exact hsound.2.2.insert_of_remove hsound.2.1.indexNames hremove

/-- A second person with the address of the first one. -/
def refusedCall : Call := .insert ⟨1, .readCommitted⟩ people (person 2 "ada")

/-- A locked cursor on the second of three people. -/
def onSecond : Cursor where
  id := 9
  transaction := 1
  schema := people
  index := none
  exclusive := true
  positioned := true
  position := some [.int 2]

/-- The second of three people is to move to the address of the first one. -/
def refusedMove : Call := .updateRow onSecond ⟨.clustered, people.columns, [], false⟩ [.int 2, .text "eve"]

/-- Whom the table refuses is not in it, and whom it refuses to move, after it has taken her row out, is where she was; the
cursor has not moved either. -/
theorem failed_writes_spare_people :
    SameTables (run (peopleCalls ++ [.insert ⟨1, .readCommitted⟩ people (person 1 "ada")]))
        (refusedCall.perform (run (peopleCalls ++ [.insert ⟨1, .readCommitted⟩ people (person 1 "ada")]))).2 ∧
      (refusedMove.perform (run crowdCalls)).1.result = .error (.engine .duplicateKey) ∧
      SameTables (run crowdCalls) (refusedMove.perform (run crowdCalls)).2 ∧
      (refusedMove.perform (run crowdCalls)).1.cursor = some onSecond := by
  have hrefused : (refusedMove.perform (run crowdCalls)).1.result = .error (.engine .duplicateKey) := by cbv
  have hmove := (failed_writes_spare_tables crowdCalls).1 refusedMove True.intro _ hrefused
  exact ⟨((failed_writes_spare_tables _).1 refusedCall True.intro (.engine .duplicateKey) (by cbv)).1, hrefused, hmove⟩

end Database
end Memory
end RowStore

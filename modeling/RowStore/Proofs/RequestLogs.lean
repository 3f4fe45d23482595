import RowStore.Proofs.CursorHistories

/-!
# What a request logs

A transaction's log grows with the calls that are made on the engine as the cursors' histories do (`Journaled`).  So a
request fails before it has logged anything, or it logs the history of one new cursor, from its opening to its closing, and
nothing else (`logs_request`).
-/
namespace RowStore
namespace Memory

open Attempt

variable {α : Type} {id : Nat}

namespace Database

/-- The number of a transaction's next cursor. -/
def nextCursor (db : Database) (id : Nat) : Nat := (db.journal id).1

/-- What a transaction's log says of a cursor. -/
def history (db : Database) (id i : Nat) : List Mark := historyOf (db.marks id) i

end Database

/-- A log that is about one cursor is that cursor's history. -/
theorem eq_map_historyOf {i : Nat} : ∀ {log : List (Nat × Mark)}, (∀ e ∈ log, e.1 = i) → log = (historyOf log i).map (i, ·)
  | [], _ => rfl
  | (j, m) :: log, h => by
    cases h (j, m) List.mem_cons_self
    have hcons : historyOf ((j, m) :: log) j = m :: historyOf log j := List.filterMap_cons_some (if_pos rfl)
    show (j, m) :: log = (historyOf ((j, m) :: log) j).map (j, ·)
    rw [hcons, List.map_cons, ← eq_map_historyOf fun e he => h e (List.mem_cons_of_mem _ he)]

theorem historyOf_eq_nil {i : Nat} {log : List (Nat × Mark)} (h : ∀ e ∈ log, e.1 ≠ i) : historyOf log i = [] :=
  List.filterMap_eq_nil_iff.2 fun e he => if_neg (h e he)

/-- **A transaction's log has grown with some calls**, made since a start with cursors of some names, about which something
was known. -/
structure Journaled (id : Nat) (names : List Nat) (known : Nat → List Mark) (start : Database) (made : List (Deed Nat))
    (cursors : List Cursor) (db : Database) : Prop where
  grown : ∃ more, db.marks id = start.marks id ++ more ∧ (∀ e ∈ more, e.1 ∈ names ++ openings made) ∧
    ∀ i, known i ++ historyOf more i = after made known i
  opened : openings made = List.range' (start.nextCursor id) (openings made).length
  next : db.nextCursor id = start.nextCursor id + (openings made).length
  numbering : db.nextTransaction = start.nextTransaction
  distinct : (cursors.map Cursor.id).Nodup
  own : ∀ c ∈ cursors, c.transaction = id ∧ c.id ∈ names ++ openings made ∧
    (c.closed = true ↔ .closed ∈ after made known c.id)
  early : ∀ i ∈ names, i < start.nextCursor id
  unknown : ∀ i, start.nextCursor id ≤ i → known i = []

namespace Journaled

variable {names : List Nat} {known : Nat → List Mark} {start db db' : Database} {made : List (Deed Nat)}
  {c c' : Cursor} {cursors : List Cursor} {d : Deed Nat}

theorem refl (hdistinct : (cursors.map Cursor.id).Nodup) (hown : ∀ c ∈ cursors, c.transaction = id ∧ c.id ∈ names ∧
      (c.closed = true ↔ .closed ∈ known c.id)) (hearly : ∀ i ∈ names, i < db.nextCursor id)
    (hunknown : ∀ i, db.nextCursor id ≤ i → known i = []) : Journaled id names known db [] cursors db where
  grown := ⟨[], (List.append_nil _).symm, fun _ he => (by cases he), fun i => List.append_nil _⟩
  opened := rfl
  next := rfl
  numbering := rfl
  distinct := hdistinct
  own c hc := ⟨(hown c hc).1, List.mem_append_left _ (hown c hc).2.1, (hown c hc).2.2⟩
  early := hearly
  unknown := hunknown

theorem lt_next (h : Journaled id names known start made cursors db) {i : Nat} (hi : i ∈ names ++ openings made) :
    i < db.nextCursor id := by
  rw [h.next]
  rcases List.mem_append.1 hi with hi | hi
  · exact Nat.lt_add_right _ (h.early i hi)
  · rw [h.opened] at hi
    exact (List.mem_range'_1.1 hi).2

/-- What opens no cursor and logs what the histories say. -/
theorem step {i : Nat} {marks : List Mark} (h : Journaled id names known start made cursors db) {cursors' : List Cursor}
    (hi : i ∈ names ++ openings made)
    (hjournal : db'.journal id = ((db.journal id).1, (db.journal id).2 ++ marks.map (i, ·)))
    (hnumbering : db'.nextTransaction = db.nextTransaction) (hopen : openings [d] = [])
    (hself : noted i (after made known i) d = after made known i ++ marks)
    (hothers : ∀ j, j ≠ i → ∀ history, noted j history d = history) (hdistinct : (cursors'.map Cursor.id).Nodup)
    (hown : ∀ c ∈ cursors', c.transaction = id ∧ c.id ∈ names ++ openings made ∧
      (c.closed = true ↔ .closed ∈ after (made ++ [d]) known c.id)) :
    Journaled id names known start (made ++ [d]) cursors' db' := by
  have hopenings : openings (made ++ [d]) = openings made := by rw [openings_append, hopen, List.append_nil]
  obtain ⟨more, hmore, hmine, hhistories⟩ := h.grown
  refine ⟨⟨more ++ marks.map (i, ·), ?_, fun e he => ?_, fun j => ?_⟩, ?_, ?_, hnumbering.trans h.numbering, hdistinct, ?_,
    h.early, h.unknown⟩
  · exact (congrArg Prod.snd hjournal).trans (by rw [← List.append_assoc, ← hmore]; rfl)
  · rw [hopenings]
    rcases List.mem_append.1 he with he | he
    · exact hmine e he
    · obtain ⟨m, -, rfl⟩ := List.mem_map.1 he
      exact hi
  · rw [historyOf_append, ← List.append_assoc, hhistories j, after_append]
    show _ = noted j (after made known j) d
    by_cases hj : j = i
    · rw [hj, historyOf_own, hself]
    · rw [historyOf_other (Ne.symm hj), List.append_nil, hothers j hj]
  · rw [hopenings]
    exact h.opened
  · rw [hopenings]
    exact (congrArg Prod.fst hjournal).trans h.next
  · rw [hopenings]
    exact hown

/-- **A call on a cursor logs what the cursor's history says.** -/
theorem call {marks : List Mark} (h : Journaled id names known start made (c :: cursors) db) (hid : c'.id = c.id)
    (htxn : c'.transaction = c.transaction)
    (hjournal : db'.journal id = ((db.journal id).1, (db.journal id).2 ++ marks.map (c.id, ·)))
    (hnumbering : db'.nextTransaction = db.nextTransaction) (hopen : openings [d] = [])
    (hself : noted c.id (after made known c.id) d = after made known c.id ++ marks)
    (hothers : ∀ j, j ≠ c.id → ∀ history, noted j history d = history)
    (hclosed : c'.closed = true ↔ .closed ∈ after made known c.id ++ marks) :
    Journaled id names known start (made ++ [d]) (c' :: cursors) db' := by
  obtain ⟨htransaction, hi, -⟩ := h.own c List.mem_cons_self
  have hnodup := h.distinct
  rw [List.map_cons, List.nodup_cons] at hnodup
  refine h.step hi hjournal hnumbering hopen hself hothers ?_ fun c₁ hc₁ => ?_
  · rw [List.map_cons, hid]
    exact List.nodup_cons.2 hnodup
  · rw [after_append]
    show _ ∧ _ ∧ (_ ↔ _ ∈ noted c₁.id (after made known c₁.id) d)
    rcases List.mem_cons.1 hc₁ with rfl | hc₁
    · rw [hid, hself]
      exact ⟨htxn.trans htransaction, hi, hclosed⟩
    · have hne : c₁.id ≠ c.id := fun heq => hnodup.1 (heq ▸ List.mem_map_of_mem hc₁)
      rw [hothers _ hne]
      exact h.own c₁ (List.mem_cons_of_mem _ hc₁)

theorem silent (h : Journaled id names known start made cursors db) (hjournal : db'.journal id = db.journal id)
    (hnumbering : db'.nextTransaction = db.nextTransaction) (hopen : openings [d] = [])
    (hnoted : ∀ i history, noted i history d = history) :
    Journaled id names known start (made ++ [d]) cursors db' := by
  have hopenings : openings (made ++ [d]) = openings made := by rw [openings_append, hopen, List.append_nil]
  have hafter : after (made ++ [d]) known = after made known := by
    rw [after_append]
    funext i
    exact hnoted i _
  obtain ⟨more, hmore, hmine, hhistories⟩ := h.grown
  refine ⟨⟨more, (congrArg Prod.snd hjournal).trans hmore, ?_, ?_⟩, ?_, ?_, hnumbering.trans h.numbering, h.distinct, ?_,
    h.early, h.unknown⟩
  · rw [hopenings]
    exact hmine
  · rw [hafter]
    exact hhistories
  · rw [hopenings]
    exact h.opened
  · rw [hopenings]
    exact (congrArg Prod.fst hjournal).trans h.next
  · rw [hopenings, hafter]
    exact h.own

/-- **A cursor that is opened is new.** -/
theorem open_cursor {onIndex : Bool} (h : Journaled id names known start made cursors db) (hid : c.id = db.nextCursor id)
    (htxn : c.transaction = id) (hclosed : c.closed = false)
    (hjournal : db'.journal id = ((db.journal id).1 + 1, (db.journal id).2 ++ [(c.id, .opened onIndex)]))
    (hnumbering : db'.nextTransaction = db.nextTransaction) (hopen : openings [d] = [c.id])
    (hself : ∀ history, noted c.id history d = [.opened onIndex])
    (hothers : ∀ j, j ≠ c.id → ∀ history, noted j history d = history) :
    Journaled id names known start (made ++ [d]) (c :: cursors) db' := by
  have hopenings : openings (made ++ [d]) = openings made ++ [c.id] := by rw [openings_append, hopen]
  have hmem : ∀ {i : Nat}, i ∈ names ++ openings made → i ∈ names ++ (openings made ++ [c.id]) := fun hi => by
    rw [← List.append_assoc]
    exact List.mem_append_left _ hi
  have hnew : ∀ {i : Nat}, i ∈ names ++ openings made → i ≠ c.id := fun hi => by
    rw [hid]
    exact Nat.ne_of_lt (h.lt_next hi)
  obtain ⟨more, hmore, hmine, hhistories⟩ := h.grown
  constructor
  case grown =>
    refine ⟨more ++ [(c.id, .opened onIndex)], ?_, fun e he => ?_, fun j => ?_⟩
    · exact (congrArg Prod.snd hjournal).trans (by rw [← List.append_assoc, ← hmore]; rfl)
    · rw [hopenings]
      rcases List.mem_append.1 he with he | he
      · exact hmem (hmine e he)
      · rw [List.mem_singleton.1 he, ← List.append_assoc]
        exact List.mem_append_right _ (List.mem_singleton.2 rfl)
    · rw [historyOf_append, after_append]
      show _ = noted j (after made known j) d
      by_cases hj : j = c.id
      · -- nothing was known of the number, and nothing has been logged under it
        have hblank : known c.id = [] := h.unknown c.id (by rw [hid, h.next]; exact Nat.le_add_right _ _)
        have hsilent : historyOf more c.id = [] := historyOf_eq_nil fun e he => hnew (hmine e he)
        rw [hj, hself, hblank, hsilent]
        exact historyOf_own c.id [.opened onIndex]
      · have hother : historyOf [(c.id, Mark.opened onIndex)] j = [] := historyOf_other (Ne.symm hj) [.opened onIndex]
        rw [hother, List.append_nil, hhistories j, hothers j hj]
  case opened =>
    rw [hopenings, List.length_append, List.length_singleton, List.range'_concat, ← h.opened, Nat.one_mul, ← h.next, hid]
  case next =>
    rw [hopenings, List.length_append]
    exact (congrArg Prod.fst hjournal).trans (congrArg (· + 1) h.next)
  case numbering => exact hnumbering.trans h.numbering
  case distinct =>
    rw [List.map_cons, List.nodup_cons]
    refine ⟨fun hc => ?_, h.distinct⟩
    obtain ⟨c₁, hc₁, heq⟩ := List.mem_map.1 hc
    exact hnew (h.own c₁ hc₁).2.1 heq
  case own =>
    intro c₁ hc₁
    rw [hopenings, after_append]
    show _ ∧ _ ∧ (_ ↔ _ ∈ noted c₁.id (after made known c₁.id) d)
    rcases List.mem_cons.1 hc₁ with rfl | hc₁
    · rw [hself, hclosed]
      refine ⟨htxn, ?_, by simp⟩
      rw [← List.append_assoc]
      exact List.mem_append_right _ (List.mem_singleton.2 rfl)
    · obtain ⟨htransaction, hi, hiff⟩ := h.own c₁ hc₁
      rw [hothers _ (hnew hi)]
      exact ⟨htransaction, hmem hi, hiff⟩
  case early => exact h.early
  case unknown => exact h.unknown

theorem tail (h : Journaled id names known start made (c :: cursors) db) :
    Journaled id names known start made cursors db :=
  ⟨h.grown, h.opened, h.next, h.numbering, (List.nodup_cons.1 h.distinct).2,
    fun c₁ hc₁ => h.own c₁ (List.mem_cons_of_mem _ hc₁), h.early, h.unknown⟩

end Journaled

/-! ## The engine's log -/

/-- The log grows with what is asked of the engine. -/
def journalWatch (id : Nat) (names : List Nat) (known : Nat → List Mark) (start : Database) :
    Watch Database Cursor Nat where
  name := Cursor.id
  holds made cursors _ db := Journaled id names known start made cursors db

section
variable {names : List Nat} {known : Nat → List Mark} {start : Database} {call : Ask}

theorem noted_other {i j : Nat} (hne : j ≠ i) (history : List Mark) (failure : Option Error) :
    noted j history (.ask i call failure) = history := by
  cases call <;> cases failure <;> simp [noted, hne.symm]

/-- A call logs what the cursor's history says, unless it closes the cursor. -/
theorem noted_marked (hcall : call ≠ .close) (i : Nat) (history : List Mark) (r : Except Error α) :
    noted i history (.ask i call (failure? r)) = history ++ (r.toOption.bind fun _ => markOf call).toList := by
  cases r with
  | error e => exact (noted_failed hcall i i history e).trans (List.append_nil _).symm
  | ok a => exact noted_ask hcall i history

theorem not_closed_markOf {r : Except Error α} : .closed ∉ (r.toOption.bind fun _ => markOf call).toList := by
  cases r <;> cases call <;> simp [markOf, Except.toOption]

variable {made : List (Deed Nat)} {cursors : List Cursor} {tuples : Nat} {i : Nat}

theorem noted_atCursor {count : Ledger → Ledger} {here here' : Cursor × Database} {r : Except Error α} {tuples' : Nat}
    (hcall : call ≠ .close) (h : Cursor.Noted (r.toOption.bind fun _ => markOf call) count here here')
    (hat : (journalWatch id names known start).atCursor cursors tuples i made here) :
    (journalWatch id names known start).atCursor cursors tuples' i (made ++ [.ask i call (failure? r)]) here' := by
  obtain ⟨rfl, hj⟩ := hat
  have hj : Journaled id names known start made (here.1 :: cursors) here.2 := hj
  obtain ⟨htransaction, -, hiff⟩ := hj.own here.1 List.mem_cons_self
  have hjournal := h.journal
  rw [htransaction] at hjournal
  refine ⟨h.id, hj.call h.id h.transaction hjournal h.numbering ?_ (noted_marked hcall _ _ r)
    (fun j hne history => noted_other hne history _) ?_⟩
  · cases call <;> rfl
  · rw [h.closed, hiff, List.mem_append]
    exact ⟨.inl, fun hc => hc.elim (fun hc => hc) fun hc => absurd hc not_closed_markOf⟩

theorem Notes.asked {m : Action (Cursor × Database) α} (h : Cursor.Notes (markOf call) m) (hcall : call ≠ .close) :
    (journalWatch id names known start).Asked m call :=
  fun _ _ _ _ here hat => ⟨_, rfl, noted_atCursor hcall (h here) hat⟩

theorem RowNotes.asked {m : Action (Tuple × Cursor × Database) α} (h : Cursor.RowNotes (markOf call) m)
    (hcall : call ≠ .close) : (journalWatch id names known start).RowAsked m call :=
  fun _ _ _ _ here hat => ⟨_, rfl, (h here.1 here.2).1.trans hat.1, noted_atCursor hcall (h here.1 here.2).2 hat.2⟩

theorem NotesTuple.makes {m : Action (Cursor × Database) Tuple} (h : Cursor.NotesTuple m) (hcall : call ≠ .close)
    (hmark : markOf call = none) : (journalWatch id names known start).Makes m call := by
  intro cursors tuples i made here hat
  have hmade := h here
  refine ⟨_, rfl, ?_⟩
  rcases hm : m here with ⟨e | tuple, here'⟩ <;> rw [hm] at hmade
  · exact noted_atCursor (r := .error e) hcall hmade hat
  · obtain ⟨hlive, hnoted⟩ := hmade
    rw [← hmark] at hnoted
    exact ⟨hlive, noted_atCursor (r := .ok tuple) hcall hnoted hat⟩

theorem NotesOpening.opens {onIndex : Bool} {m : Action Database Cursor} (h : Cursor.NotesOpening id onIndex m)
    (deed : Except Error Nat → Deed Nat) (hnone : ∀ e, openings [deed (.error e)] = [])
    (hsilent : ∀ e i history, noted i history (deed (.error e)) = history) (hsome : ∀ i, openings [deed (.ok i)] = [i])
    (hnoted : ∀ i j history, noted j history (deed (.ok i)) = if i = j then [.opened onIndex] else history) :
    Tells ((journalWatch id names known start).idle cursors tuples) m
      (fun r told => told = [deed (r.map (journalWatch id names known start).name)])
      ((journalWatch id names known start).opened cursors tuples) := by
  intro made db hj
  have hj : Journaled id names known start made cursors db := hj
  have hopened := h db
  refine ⟨_, rfl, ?_⟩
  rcases hm : m db with ⟨e | c, db'⟩ <;> rw [hm] at hopened
  · exact hj.silent hopened.1 hopened.2.2 (hnone e) (hsilent e)
  · obtain ⟨hid, htransaction, hclosed, hjournal, -, hnumbering⟩ := hopened
    exact hj.open_cursor hid htransaction hclosed hjournal hnumbering (hsome c.id)
      (fun history => (hnoted c.id c.id history).trans (if_pos rfl))
      fun j hne history => (hnoted c.id j history).trans (if_neg hne.symm)

theorem released {c : Cursor} {db : Database} {d : Deed Nat} (hj : Journaled id names known start made (c :: cursors) db)
    (hopen : openings [d] = []) (hnoted : ∀ j history, noted j history d =
      if c.id = j ∧ .closed ∉ history then history ++ [.closed] else history) :
    Journaled id names known start (made ++ [d]) ((Cursor.release (c, db)).1 :: cursors) (Cursor.release (c, db)).2 := by
  obtain ⟨hid, htxn, hclosed, hjournal, -, hnumbering⟩ := Cursor.release_journal c db
  obtain ⟨htransaction, -, hiff⟩ := hj.own c List.mem_cons_self
  have hmarks : (if c.closed then [] else [(c.id, Mark.closed)]) =
      (if c.closed then [] else [Mark.closed]).map (c.id, ·) := by
    cases c.closed <;> rfl
  rw [htransaction, hmarks] at hjournal
  refine hj.call hid htxn hjournal hnumbering hopen ?_ (fun j hne history => ?_) ?_
  · rw [hnoted]
    cases hc : c.closed with
    | true =>
      rw [if_neg fun hnot => hnot.2 (hiff.1 hc)]
      exact (List.append_nil _).symm
    | false => exact if_pos ⟨rfl, fun hmem => Bool.false_ne_true (hc.symm.trans (hiff.2 hmem))⟩
  · rw [hnoted]
    exact if_neg fun hc => hne hc.1.symm
  · refine iff_of_true hclosed ?_
    cases hc : c.closed with
    | true => exact List.mem_append_left _ (hiff.1 hc)
    | false => exact List.mem_append_right _ (List.mem_singleton.2 rfl)

end

/-- **What is asked of the engine for a transaction is what the transaction's log grows with.** -/
theorem watched_journal (txn : Transaction) (names : List Nat) (known : Nat → List Mark) (start : Database) :
    engine.Watched (journalWatch txn.id names known start) txn where
  perm {made cursors cursors' tuples db} hperm hj :=
    { hj with
      distinct := (hperm.map _).nodup_iff.1 (Journaled.distinct hj)
      own := fun c hc => Journaled.own hj c (hperm.mem_iff.2 hc) }
  openTable schema _ _ := NotesOpening.opens (Cursor.notesOpening_create _ schema none) (.openTable schema.name)
    (fun _ => rfl) (fun _ _ _ => rfl) (fun _ => rfl) fun _ _ _ => rfl
  openIndex table index _ _ := NotesOpening.opens (Cursor.notesOpening_createOnIndex _ table index) .openIndex
    (fun _ => rfl) (fun _ _ _ => rfl) (fun _ => rfl) fun _ _ _ => rfl
  setLockMode mode := Notes.asked (Cursor.notes_setLockMode mode) nofun
  lock mode := Notes.asked (Cursor.notes_lock mode) nofun
  setClusterAccess := Notes.asked Cursor.notes_setClusterAccess nofun
  searchTuple key := NotesTuple.makes (Cursor.notesTuple_searchTuple key) nofun rfl
  readTuple := NotesTuple.makes Cursor.notesTuple_readTuple nofun rfl
  search tuple mode := Notes.asked (Cursor.notes_search tuple mode) nofun
  readRow := RowNotes.asked Cursor.rowNotes_readRow nofun
  insertRow cells := RowNotes.asked (Cursor.rowNotes_insertRow cells) nofun
  updateRow cells := RowNotes.asked (Cursor.rowNotes_updateRow cells) nofun
  deleteRow := Notes.asked Cursor.notes_deleteRow nofun
  advance direction := Notes.asked (Cursor.notes_advance direction) nofun
  close := by
    rintro cursors tuples i made ⟨c, db⟩ ⟨rfl, hj⟩
    exact ⟨_, rfl, (Cursor.release_journal c db).1, released hj rfl fun _ _ => rfl⟩
  tupleReleased hj := Journaled.silent hj rfl rfl rfl fun _ _ => rfl
  letGo {_ c _ _ _} hj := (released (d := .letGo c.id) hj rfl fun _ _ => rfl).tail

/-! ## Requests -/

/-- **A request fails without a cursor, or takes the next number and logs the history of one cursor** that is opened, used
lawfully, and closed at last. -/
def Requested (id : Nat) (write : Bool) (r : Except Error α) (db db' : Database) : Prop :=
  ((∃ e, r = .error e) ∧ db'.journal id = db.journal id) ∨
    ∃ marks, db'.journal id = (db.nextCursor id + 1, db.marks id ++ marks.map (db.nextCursor id, ·)) ∧ Settled write marks

/-- **Whatever the database, a request logs the history of one cursor, or nothing.** -/
theorem logs_request (request : Request) (txn : Transaction) (schema : TableSchema) (db : Database) :
    Requested txn.id request.writes (request.perform engine txn schema db).1 db
      (request.perform engine txn schema db).2 := by
  have hstart : Journaled txn.id [] (fun _ => []) db [] [] db :=
    .refl List.nodup_nil (fun _ hc => by cases hc) (fun _ hi => by cases hi) fun _ _ => rfl
  obtain ⟨told, hsingle, hj⟩ := (watched_journal txn [] (fun _ => []) db).perform schema request [] 0 []
    db hstart
  have hj : Journaled txn.id [] (fun _ => []) db told [] (request.perform engine txn schema db).2 := hj
  obtain ⟨more, hmore, hmine, hhistories⟩ := hj.grown
  rcases history_single hsingle with ⟨hfailed, hopen, -⟩ | ⟨i, hopen, hsettled, -⟩
  · refine .inl ⟨hfailed, Prod.ext (hj.next.trans (by rw [hopen]; rfl)) (hmore.trans ?_)⟩
    have hnil : more = [] := List.eq_nil_iff_forall_not_mem.2 fun e he => by
      have hmem := hmine e he
      rw [hopen] at hmem
      cases hmem
    rw [hnil, List.append_nil]
    rfl
  · have hi : i = db.nextCursor txn.id := by
      have hnumbers := hj.opened
      rw [hopen] at hnumbers
      exact List.head_eq_of_cons_eq hnumbers
    subst hi
    have hown : more = (historyOf more _).map (db.nextCursor txn.id, ·) := eq_map_historyOf fun e he => by
      have hmem := hmine e he
      rw [hopen] at hmem
      exact List.mem_singleton.1 hmem
    refine .inr ⟨historyOf more (db.nextCursor txn.id), Prod.ext (hj.next.trans (by rw [hopen]; rfl)) (hmore.trans ?_), ?_⟩
    · dsimp only
      rw [← hown]
    · have hhistory := hhistories (db.nextCursor txn.id)
      rw [List.nil_append] at hhistory
      rw [hhistory]
      exact hsettled []

end Memory
end RowStore

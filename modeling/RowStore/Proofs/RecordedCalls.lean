import RowStore.Proofs.ScanDeeds

/-!
# Counted and recorded calls

An engine's accounts say how many tuples are live and how many cursors are open (`Accounts`); its calls are accounted for
if each changes the numbers by what it makes, opens and closes, whether it succeeds or fails (`Engine.Accounted`).  Such
an engine is watched, with or without a record of all that is asked of it (`Engine.recorded`).  In the record the tuples of
a request or a scan are released before its cursors are closed (`TuplesFirst`).
-/
namespace RowStore

open Attempt

variable {ι σ τ κ α : Type}

/-! ## Accounts -/

/-- The live tuples and open cursors of an engine. -/
structure Accounts (σ κ : Type) where
  tuples : σ → Int
  cursors : σ → Int
  isOpen : κ → Bool

namespace Accounts

variable (acc : Accounts σ κ)

/-- The numbers are the same. -/
def Same (s s' : σ) : Prop := acc.tuples s' = acc.tuples s ∧ acc.cursors s' = acc.cursors s

/-- What a cursor adds to the number of open cursors. -/
def count (c : κ) : Int := bif acc.isOpen c then 1 else 0

/-- An open cursor is made, or nothing. -/
def Opens (m : Action σ κ) : Prop := ∀ s, acc.tuples (m s).2 = acc.tuples s ∧ match (m s).1 with
  | .ok c => acc.isOpen c = true ∧ acc.cursors (m s).2 = acc.cursors s + 1
  | .error _ => acc.cursors (m s).2 = acc.cursors s

/-- So many tuples are made, and the cursor is counted if it is open. -/
def Moves (here here' : κ × σ) (made : Int) : Prop := acc.tuples here'.2 = acc.tuples here.2 + made ∧
  acc.cursors here'.2 - acc.count here'.1 = acc.cursors here.2 - acc.count here.1

/-- A call on a cursor makes no tuple. -/
def Keeps (m : Action (κ × σ) α) : Prop := ∀ here, acc.Moves here (m here).2 0

/-- Nor does a call on a tuple and a cursor, and a live tuple stays live. -/
def KeepsRow (m : Action (Tuple × κ × σ) α) : Prop :=
  ∀ tuple here, (m (tuple, here)).2.1.disposed = tuple.disposed ∧ acc.Moves here (m (tuple, here)).2.2 0

/-- A live tuple is made, or none. -/
def Makes (m : Action (κ × σ) Tuple) : Prop := ∀ here, match (m here).1 with
  | .ok tuple => tuple.disposed = false ∧ acc.Moves here (m here).2 1
  | .error _ => acc.Moves here (m here).2 0

/-- The numbers are those of the start and of what has come to hand since. -/
def watch (start : σ) : Watch σ κ Unit where
  name _ := ()
  holds _ cursors tuples s := acc.tuples s = acc.tuples start + tuples ∧
    acc.cursors s = acc.cursors start + (cursors.map acc.count).sum

end Accounts

/-- **All calls of an engine for a transaction are accounted for.**  Any of them may fail. -/
structure Engine.Accounted (E : Engine σ τ κ) (acc : Accounts σ κ) (txn : τ) : Prop where
  openTable : ∀ schema, acc.Opens (E.openTable txn schema)
  openIndex : ∀ table index, acc.Opens (E.openIndex txn table index)
  setLockMode : ∀ mode, acc.Keeps (E.setLockMode mode)
  lock : ∀ mode, acc.Keeps (E.lock mode)
  setClusterAccess : acc.Keeps E.setClusterAccess
  searchTuple : ∀ key, acc.Makes (E.searchTuple key)
  readTuple : acc.Makes E.readTuple
  search : ∀ tuple mode, acc.Keeps (E.search tuple mode)
  readRow : acc.KeepsRow E.readRow
  insertRow : ∀ cells, acc.KeepsRow (E.insertRow cells)
  updateRow : ∀ cells, acc.KeepsRow (E.updateRow cells)
  deleteRow : acc.Keeps E.deleteRow
  advance : ∀ direction, acc.Keeps (E.advance direction)
  close : acc.Keeps E.close
  tupleReleased : ∀ s, acc.tuples (E.tupleReleased s) = acc.tuples s - 1 ∧ acc.cursors (E.tupleReleased s) = acc.cursors s
  letGo : ∀ c s, acc.tuples (E.letGoCursor c s) = acc.tuples s ∧
    acc.cursors (E.letGoCursor c s) = acc.cursors s - acc.count c

namespace Accounts

variable {acc : Accounts σ κ} {start : σ} {call : Ask}

theorem Moves.atCursor {here here' : κ × σ} {cursors : List κ} {tuples : Nat} (made : Nat)
    (h : acc.Moves here here' made) (hat : (acc.watch start).atCursor cursors tuples () [] here) :
    (acc.watch start).atCursor cursors (tuples + made) () [] here' := by
  obtain ⟨htuples, hcursors⟩ := h
  obtain ⟨-, hlive, hopen⟩ := hat
  refine ⟨rfl, ?_, ?_⟩
  · rw [htuples, hlive]
    push_cast
    ring
  · rw [List.map_cons, List.sum_cons] at hopen ⊢
    linarith

theorem Keeps.asked {m : Action (κ × σ) α} (h : acc.Keeps m) : (acc.watch start).Asked m call :=
  fun _ _ _ _ here hat => ⟨_, rfl, Moves.atCursor 0 (h here) hat⟩

theorem KeepsRow.asked {m : Action (Tuple × κ × σ) α} (h : acc.KeepsRow m) : (acc.watch start).RowAsked m call :=
  fun _ _ _ _ here hat => ⟨_, rfl, (h here.1 here.2).1.trans hat.1, Moves.atCursor 0 (h here.1 here.2).2 hat.2⟩

theorem Makes.makes {m : Action (κ × σ) Tuple} (h : acc.Makes m) : (acc.watch start).Makes m call := by
  intro cursors tuples _ made here hat
  have hmade := h here
  refine ⟨_, rfl, ?_⟩
  rcases hm : m here with ⟨e | tuple, here'⟩ <;> rw [hm] at hmade
  · exact Moves.atCursor 0 hmade hat
  · exact ⟨hmade.1, Moves.atCursor 1 hmade.2 hat⟩

theorem Opens.opened {m : Action σ κ} (h : acc.Opens m) (deed : Except Error Unit → Deed Unit) {cursors : List κ}
    {tuples : Nat} : Tells ((acc.watch start).idle cursors tuples) m
      (fun r told => told = [deed (r.map (acc.watch start).name)]) ((acc.watch start).opened cursors tuples) := by
  rintro made s ⟨hlive, hopen⟩
  obtain ⟨htuples, hcursors⟩ := h s
  refine ⟨_, rfl, ?_⟩
  rcases hm : m s with ⟨e | c, s'⟩ <;> rw [hm] at htuples hcursors
  · exact ⟨htuples.trans hlive, hcursors.trans hopen⟩
  · refine ⟨htuples.trans hlive, ?_⟩
    obtain ⟨hisOpen, hcount⟩ := hcursors
    rw [List.map_cons, List.sum_cons, count, hisOpen, cond_true]
    dsimp only at hcount ⊢
    linarith

end Accounts

namespace Engine.Accounted

variable {E : Engine σ τ κ} {acc : Accounts σ κ} {txn : τ}

/-- **The calls of an engine that are accounted for are watched.** -/
theorem watched (h : E.Accounted acc txn) (start : σ) : E.Watched (acc.watch start) txn where
  perm hperm hholds := ⟨hholds.1, hholds.2.trans (congrArg _ (hperm.map _).sum_eq)⟩
  openTable schema _ _ := (h.openTable schema).opened (.openTable schema.name)
  openIndex table index _ _ := (h.openIndex table index).opened .openIndex
  setLockMode mode := (h.setLockMode mode).asked
  lock mode := (h.lock mode).asked
  setClusterAccess := h.setClusterAccess.asked
  searchTuple key := (h.searchTuple key).makes
  readTuple := h.readTuple.makes
  search tuple mode := (h.search tuple mode).asked
  readRow := h.readRow.asked
  insertRow cells := (h.insertRow cells).asked
  updateRow cells := (h.updateRow cells).asked
  deleteRow := h.deleteRow.asked
  advance direction := (h.advance direction).asked
  close := h.close.asked
  tupleReleased hholds := by
    obtain ⟨htuples, hcursors⟩ := h.tupleReleased _
    refine ⟨?_, hcursors.trans hholds.2⟩
    rw [htuples, hholds.1]
    push_cast
    ring
  letGo hholds := by
    obtain ⟨htuples, hcursors⟩ := h.letGo _ _
    refine ⟨htuples.trans hholds.1, ?_⟩
    rw [hcursors, hholds.2, List.map_cons, List.sum_cons]
    ring

end Engine.Accounted

/-! ## Records -/

/-- An engine's state with a record of what has been asked of the engine.  A cursor goes by the place of its opening. -/
abbrev Recorded (σ : Type) : Type := List (Deed Nat) × σ

namespace Recorded

def opening (deed : Except Error Nat → Deed Nat) (m : Action σ κ) : Action (Recorded σ) (Nat × κ) := fun (record, s) =>
  let (r, s) := m s
  (r.map (record.length, ·), (record ++ [deed (r.map fun _ => record.length)], s))

def asking (call : Ask) (m : Action (κ × σ) α) : Action ((Nat × κ) × Recorded σ) α := fun ((name, c), (record, s)) =>
  let (r, (c, s)) := m (c, s)
  (r, ((name, c), (record ++ [.ask name call (failure? r)], s)))

def askingRow (call : Ask) (m : Action (Tuple × κ × σ) α) : Action (Tuple × (Nat × κ) × Recorded σ) α :=
  fun (tuple, (name, c), (record, s)) =>
    let (r, (tuple, c, s)) := m (tuple, c, s)
    (r, (tuple, (name, c), (record ++ [.ask name call (failure? r)], s)))

end Recorded

/-- The engine, with a record of all that is asked of it. -/
def Engine.recorded (E : Engine σ τ κ) : Engine (Recorded σ) τ (Nat × κ) where
  begin level := Attempt.below (E.begin level)
  commit txn := Attempt.below (E.commit txn)
  rollback txn := Attempt.below (E.rollback txn)
  openTable txn schema := Recorded.opening (.openTable schema.name) (E.openTable txn schema)
  openIndex txn cursor index := Recorded.opening .openIndex (E.openIndex txn cursor.2 index)
  setLockMode mode := Recorded.asking (.setLockMode mode) (E.setLockMode mode)
  lock mode := Recorded.asking (.lock mode) (E.lock mode)
  setClusterAccess := Recorded.asking .setClusterAccess E.setClusterAccess
  searchTuple key := Recorded.asking .searchTuple (E.searchTuple key)
  readTuple := Recorded.asking .readTuple E.readTuple
  search tuple mode := Recorded.asking .search (E.search tuple mode)
  isPositioned := fun ((_, c), (_, s)) => E.isPositioned (c, s)
  hasNext := fun ((_, c), (_, s)) => E.hasNext (c, s)
  readRow := Recorded.askingRow .readRow E.readRow
  insertRow cells := Recorded.askingRow .insertRow (E.insertRow cells)
  updateRow cells := Recorded.askingRow .updateRow (E.updateRow cells)
  deleteRow := Recorded.asking .deleteRow E.deleteRow
  advance direction := Recorded.asking .advance (E.advance direction)
  close := Recorded.asking .close E.close
  letGoCursor := fun (name, c) (record, s) => (record ++ [.letGo name], E.letGoCursor c s)
  tupleReleased := fun (record, s) => (record ++ [.tupleReleased], E.tupleReleased s)
  entryBound := fun ((_, c), (_, s)) => E.entryBound (c, s)

/-- The tuples that a call on a cursor makes if it succeeds. -/
def Ask.makes : Ask → Int
  | searchTuple | readTuple => 1
  | _ => 0

namespace Deed

/-- What a call adds to the number of live tuples. -/
def tuples : Deed ι → Int
  | ask _ call none => call.makes
  | tupleReleased => -1
  | _ => 0

theorem tuples_ask {call : Ask} (h : call.makes = 0) (i : ι) (failure : Option Error) :
    (ask i call failure).tuples = 0 := by
  cases failure with
  | none => exact h
  | some e => rfl

/-- Nothing but to close or let go of a cursor. -/
def Closes : Deed ι → Prop
  | ask _ .close _ | letGo _ => True
  | _ => False

theorem Closes.tuples {d : Deed ι} (h : d.Closes) : d.tuples = 0 := by
  cases d with
  | ask i call failure =>
    cases call with
    | close => exact tuples_ask rfl _ _
    | _ => exact h.elim
  | letGo => rfl
  | openTable | openIndex | tupleReleased => exact h.elim

end Deed

/-- How many more tuples are live after some calls than before. -/
def liveAfter (told : List (Deed ι)) : Int := (told.map Deed.tuples).sum

theorem liveAfter_append (told more : List (Deed ι)) : liveAfter (told ++ more) = liveAfter told + liveAfter more := by
  unfold liveAfter
  rw [List.map_append, List.sum_append]

/-- A start of the record is at hand, with the calls made since, and the tuples that they have made are those at hand. -/
def Accounts.recordWatch (acc : Accounts σ κ) (start : Recorded σ) (held : Nat) : Watch (Recorded σ) (Nat × κ) Nat where
  name := Prod.fst
  holds made cursors tuples here := here.1 = start.1 ++ made ∧ held + liveAfter made = tuples ∧
    (acc.watch start.2).holds [] (cursors.map Prod.snd) tuples here.2

namespace Accounts

variable {acc : Accounts σ κ} {start : Recorded σ} {held : Nat} {call : Ask}

/-- A call is recorded, and the tuple that it makes or releases comes to hand or goes. -/
theorem recordWatch_append {made record : List (Deed Nat)} {cursors cursors' : List (Nat × κ)} {tuples tuples' : Nat}
    {s s' : σ} {d : Deed Nat} (h : (acc.recordWatch start held).holds made cursors tuples (record, s))
    (hd : tuples + d.tuples = tuples') (hs : (acc.watch start.2).holds [] (cursors'.map Prod.snd) tuples' s') :
    (acc.recordWatch start held).holds (made ++ [d]) cursors' tuples' (record ++ [d], s') := by
  obtain ⟨hrecord, hlive, -⟩ := h
  refine ⟨?_, ?_, hs⟩
  · dsimp only at hrecord ⊢
    rw [hrecord, List.append_assoc]
  · rw [liveAfter_append, ← add_assoc, hlive, ← hd]
    simp [liveAfter]

theorem Keeps.recorded {m : Action (κ × σ) α} (h : acc.Keeps m) (hcall : call.makes = 0) :
    (acc.recordWatch start held).Asked (Recorded.asking call m) call := by
  rintro cursors tuples i made ⟨⟨name, c⟩, record, s⟩ ⟨rfl, hholds⟩
  have hcount := Moves.atCursor 0 (h (c, s)) ⟨rfl, hholds.2.2⟩
  exact ⟨_, rfl, rfl, recordWatch_append (d := .ask name call (failure? (m (c, s)).1)) hholds
    (by rw [Deed.tuples_ask hcall, add_zero]) hcount.2⟩

theorem KeepsRow.recorded {m : Action (Tuple × κ × σ) α} (h : acc.KeepsRow m)
    (hcall : call.makes = 0) :
    (acc.recordWatch start held).RowAsked (Recorded.askingRow call m) call := by
  rintro cursors tuples i made ⟨tuple, ⟨name, c⟩, record, s⟩ ⟨hlive, rfl, hholds⟩
  obtain ⟨hdisposed, hmoves⟩ := h tuple (c, s)
  have hcount := hmoves.atCursor 0 ⟨rfl, hholds.2.2⟩
  exact ⟨_, rfl, hdisposed.trans hlive, rfl,
    recordWatch_append (d := .ask name call (failure? (m (tuple, c, s)).1)) hholds
      (by rw [Deed.tuples_ask hcall, add_zero]) hcount.2⟩

theorem Makes.recorded {m : Action (κ × σ) Tuple} (h : acc.Makes m) (hcall : call.makes = 1) :
    (acc.recordWatch start held).Makes (Recorded.asking call m) call := by
  rintro cursors tuples i made ⟨⟨name, c⟩, record, s⟩ ⟨rfl, hholds⟩
  have hmade := h (c, s)
  refine ⟨_, rfl, ?_⟩
  unfold Recorded.asking
  dsimp only
  rcases hm : m (c, s) with ⟨e | tuple, here'⟩ <;> rw [hm] at hmade
  · have hcount := Moves.atCursor 0 hmade ⟨rfl, hholds.2.2⟩
    exact ⟨rfl, recordWatch_append (d := .ask name call (some e)) hholds (add_zero _) hcount.2⟩
  · have hcount := Moves.atCursor 1 hmade.2 ⟨rfl, hholds.2.2⟩
    refine ⟨hmade.1, rfl, recordWatch_append (d := .ask name call none) hholds ?_ hcount.2⟩
    show (tuples : Int) + call.makes = _
    rw [hcall]
    rfl

theorem Opens.recorded {m : Action σ κ} (h : acc.Opens m) {deed : Except Error Nat → Deed Nat}
    (hdeed : ∀ r, (deed r).tuples = 0) {cursors : List (Nat × κ)} {tuples : Nat} :
    Tells ((acc.recordWatch start held).idle cursors tuples) (Recorded.opening deed m)
      (fun r told => told = [deed (r.map (acc.recordWatch start held).name)])
      ((acc.recordWatch start held).opened cursors tuples) := by
  rintro made ⟨record, s⟩ hholds
  obtain ⟨_, rfl, hopened⟩ := h.opened (fun _ => .tupleReleased) [] s hholds.2.2
  refine ⟨_, rfl, ?_⟩
  unfold Recorded.opening
  dsimp only
  rcases hm : m s with ⟨e | c, s'⟩ <;> rw [hm] at hopened
  · exact recordWatch_append hholds (by rw [hdeed, add_zero]) hopened
  · exact recordWatch_append hholds (by rw [hdeed, add_zero]) hopened

end Accounts

/-- **So are they with a record.** -/
theorem Engine.Accounted.recorded {E : Engine σ τ κ} {acc : Accounts σ κ} {txn : τ} (h : E.Accounted acc txn)
    (start : Recorded σ) (held : Nat) : E.recorded.Watched (acc.recordWatch start held) txn where
  perm hperm hholds := ⟨hholds.1, hholds.2.1, (h.watched start.2).perm (hperm.map Prod.snd) hholds.2.2⟩
  openTable schema _ _ := (h.openTable schema).recorded fun _ => rfl
  openIndex table index _ _ := (h.openIndex table.2 index).recorded fun _ => rfl
  setLockMode mode := (h.setLockMode mode).recorded rfl
  lock mode := (h.lock mode).recorded rfl
  setClusterAccess := h.setClusterAccess.recorded rfl
  searchTuple key := (h.searchTuple key).recorded rfl
  readTuple := h.readTuple.recorded rfl
  search tuple mode := (h.search tuple mode).recorded rfl
  readRow := h.readRow.recorded rfl
  insertRow cells := (h.insertRow cells).recorded rfl
  updateRow cells := (h.updateRow cells).recorded rfl
  deleteRow := h.deleteRow.recorded rfl
  advance direction := (h.advance direction).recorded rfl
  close := h.close.recorded rfl
  tupleReleased hholds := Accounts.recordWatch_append hholds (by simp [Deed.tuples])
    ((h.watched start.2).tupleReleased hholds.2.2)
  letGo hholds := Accounts.recordWatch_append hholds (Int.add_zero _) ((h.watched start.2).letGo hholds.2.2)

/-! ## Tuples before cursors -/

variable {write : Bool} {table : String} {r : Except Error α} {told : List (Deed ι)} {held : Nat} {i : ι}

/-- **All tuples are released before a cursor is closed**: the calls are some that close none, behind which no tuple is
left of those that were held or have been made, and then some that only close cursors. -/
def TuplesFirst (held : Nat) (told : List (Deed ι)) : Prop :=
  ∃ work closing, told = work ++ closing ∧ (∀ d ∈ work, ¬d.Closes) ∧ (∀ d ∈ closing, d.Closes) ∧
    (closing ≠ [] → held + liveAfter work = 0)

theorem liveAfter_closing {closing : List (Deed ι)} (h : ∀ d ∈ closing, d.Closes) : liveAfter closing = 0 :=
  List.sum_eq_zero fun n hn => by
    obtain ⟨d, hd, rfl⟩ := List.mem_map.1 hn
    exact (h d hd).tuples

theorem TuplesFirst.of_append (work closing : List (Deed ι)) (hwork : ∀ d ∈ work, ¬d.Closes)
    (hclosing : ∀ d ∈ closing, d.Closes) (hlive : closing ≠ [] → held + liveAfter (work ++ closing) = 0) :
    TuplesFirst held (work ++ closing) := by
  refine ⟨work, closing, rfl, hwork, hclosing, fun hne => ?_⟩
  have hzero := hlive hne
  rw [liveAfter_append, liveAfter_closing hclosing, add_zero] at hzero
  exact hzero

/-- Where no cursor is closed, tuples may be left. -/
theorem TuplesFirst.of_open (hwork : ∀ d ∈ told, ¬d.Closes) : TuplesFirst held told :=
  ⟨told, [], (List.append_nil told).symm, hwork, fun _ hd => (by cases hd), fun hne => absurd rfl hne⟩

theorem TuplesFirst.nil : TuplesFirst held ([] : List (Deed ι)) := .of_open fun _ hd => by cases hd

theorem Deed.WorksOn.not_closes {d : Deed ι} (h : d.WorksOn i write) : ¬d.Closes := by
  cases d with
  | ask j call failure =>
    cases call with
    | close => exact fun _ => h.2
    | _ => exact fun hcloses => hcloses
  | tupleReleased => exact fun hcloses => hcloses
  | openTable | openIndex | letGo => exact fun _ => h

theorem Worked.not_closes (h : Worked i write r told) : ∀ d ∈ told, ¬d.Closes := fun d hd => (h.works d hd).not_closes

theorem Guarded.not_closes {write' : Bool} (h : Guarded i (Worked i write') write r told) : ∀ d ∈ told, ¬d.Closes := by
  have hlock : ∀ mode failure, ¬(Deed.ask i (.lock mode) failure).Closes := fun _ _ h => h
  have hmode : ∀ mode failure, ¬(Deed.ask i (.setLockMode mode) failure).Closes := fun _ _ h => h
  cases h with
  | free hwork => exact hwork.not_closes
  | unannounced e => exact List.forall_mem_singleton.2 (hmode _ _)
  | unlocked e => exact List.forall_mem_cons.2 ⟨hmode _ _, List.forall_mem_singleton.2 (hlock _ _)⟩
  | locked hwork => exact List.forall_mem_cons.2 ⟨hmode _ _, List.forall_mem_cons.2 ⟨hlock _ _, hwork.not_closes⟩⟩

theorem Single.tuplesFirst (h : Single table write r told) (hlive : liveAfter told = 0) : TuplesFirst 0 told := by
  have hopen : ∀ opened : Except Error ι, ¬(Deed.openTable table opened).Closes := fun _ h => h
  cases h with
  | unopened e => exact .of_open (List.forall_mem_singleton.2 (hopen _))
  | @opened i r work closed hwork =>
    refine TuplesFirst.of_append (.openTable table (.ok i) :: work) [.ask i .close closed, .letGo i]
      (List.forall_mem_cons.2 ⟨hopen _, hwork.not_closes⟩) ?_ fun _ => ?_
    · exact List.forall_mem_cons.2 ⟨True.intro, List.forall_mem_singleton.2 True.intro⟩
    · exact (Int.zero_add _).trans hlive

theorem Cursors.closes_closing {n : Cursors ι} {indexClosed tableClosed : Option Error} :
    ∀ d ∈ n.closing indexClosed tableClosed, d.Closes := by
  unfold closing
  cases n.index with
  | none => exact List.forall_mem_cons.2 ⟨True.intro, List.forall_mem_singleton.2 True.intro⟩
  | some i =>
    intro d hd
    fin_cases hd <;> exact True.intro

/-- The tuples that a scan holds, by its cursors. -/
def heldBy (n : Option (Cursors ι)) : Nat := n.elim 0 fun _ => 1

variable {before after : Option (Cursors ι)} {done : Except Error Unit}

theorem Pulled.split (h : Pulled before after done told) : ∃ work closing, told = work ++ closing ∧
    (∀ d ∈ work, ¬d.Closes) ∧ (∀ d ∈ closing, d.Closes) ∧ (closing ≠ [] → after = none) := by
  cases h with
  | rest => exact ⟨[], [], rfl, fun _ hd => (by cases hd), fun _ hd => (by cases hd), fun _ => rfl⟩
  | on hwork =>
    exact ⟨told, [], (List.append_nil told).symm, hwork.not_closes, fun _ hd => (by cases hd), fun hne => absurd rfl hne⟩
  | @ended n r work indexClosed tableClosed hwork =>
    refine ⟨work ++ [.tupleReleased], n.closing indexClosed tableClosed, ?_, ?_, Cursors.closes_closing, fun _ => rfl⟩
    · rw [List.append_assoc]
      rfl
    · exact List.forall_mem_append.2 ⟨hwork.not_closes, List.forall_mem_singleton.2 fun h => h⟩

theorem Pulled.tuplesFirst (h : Pulled before after done told) (hlive : heldBy before + liveAfter told = heldBy after) :
    TuplesFirst (heldBy before) told := by
  obtain ⟨work, closing, rfl, hwork, hclosing, hnone⟩ := h.split
  refine .of_append _ _ hwork hclosing fun hne => ?_
  rw [hlive, hnone hne]
  rfl

theorem Released.tuplesFirst (h : Released before told) : TuplesFirst (heldBy before) told := by
  cases h with
  | nothing => exact .nil
  | @all n indexClosed tableClosed =>
    exact ⟨[.tupleReleased], n.closing indexClosed tableClosed, rfl, List.forall_mem_singleton.2 fun h => h,
      Cursors.closes_closing, fun _ => rfl⟩

theorem Dispatched.tuplesFirst (h : Dispatched table done told) (hlive : liveAfter told = 0) : TuplesFirst 0 told := by
  cases h with
  | nothing => exact .nil
  | request hsingle => exact hsingle.tuplesFirst hlive

/-- Each part of a visit releases its own tuples first: the pull and the closing that of the scan, the request its own. -/
theorem Visited.tuplesFirst {between : Option (Cursors ι)} {more closing : List (Deed ι)}
    (h : Visited table before between after done told more closing)
    (hpulled : heldBy before + liveAfter told = heldBy between) (hrequest : liveAfter more = 0) :
    TuplesFirst (heldBy before) told ∧ TuplesFirst 0 more ∧ TuplesFirst (heldBy between) closing := by
  cases h with
  | stopped hturn => exact ⟨hturn.tuplesFirst hpulled, .nil, .nil⟩
  | dispatched hturn hdispatched => exact ⟨hturn.tuplesFirst hpulled, hdispatched.tuplesFirst hrequest, .nil⟩
  | failed hturn hdispatched hclosing =>
    exact ⟨hturn.tuplesFirst hpulled, hdispatched.tuplesFirst hrequest, hclosing.tuplesFirst⟩

theorem IndexOpened.not_closes {r : Except Error (Option ι)} (h : IndexOpened r told) (hr : ∀ e, r ≠ .error e) :
    ∀ d ∈ told, ¬d.Closes := by
  cases h with
  | without => exact fun _ hd => by cases hd
  | opened i => exact List.forall_mem_cons.2 ⟨fun h => h, List.forall_mem_singleton.2 fun h => h⟩
  | unopened e | unreadable i e => exact absurd rfl (hr e)

theorem Taken.not_closes {n : Cursors ι} (h : Taken table write (.ok n) told) : ∀ d ∈ told, ¬d.Closes := by
  cases h with
  | taken hopening hwork =>
    exact List.forall_mem_cons.2 ⟨fun h => h,
      List.forall_mem_append.2 ⟨hopening.not_closes fun _ h => (by cases h), hwork.not_closes⟩⟩

theorem Taken.tuplesFirst {e : Error} (h : Taken table write (.error e) told) (hlive : liveAfter told = 0) :
    TuplesFirst 0 told := by
  have hlive' : ((0 : Nat) : Int) + liveAfter told = 0 := (Int.zero_add _).trans hlive
  have hopen : ∀ opened : Except Error ι, ¬(Deed.openTable table opened).Closes := fun _ h => h
  cases h with
  | unplanned => exact .nil
  | unopened => exact .of_open (List.forall_mem_singleton.2 (hopen _))
  | @unindexed t _ opening indexClosed tableClosed hopening =>
    cases hopening with
    | unopened =>
      exact TuplesFirst.of_append [.openTable table (.ok t), .openIndex (.error e)] _
        (List.forall_mem_cons.2 ⟨hopen _, List.forall_mem_singleton.2 fun h => h⟩) Cursors.closes_closing fun _ => hlive'
    | unreadable i =>
      refine TuplesFirst.of_append
        [.openTable table (.ok t), .openIndex (.ok i), .ask i .setClusterAccess (some e)]
        (.letGo i :: Cursors.closing ⟨t, none⟩ indexClosed tableClosed) ?_
        (List.forall_mem_cons.2 ⟨True.intro, Cursors.closes_closing⟩) fun _ => hlive'
      exact List.forall_mem_cons.2 ⟨hopen _, List.forall_mem_cons.2 ⟨fun h => h, List.forall_mem_singleton.2 fun h => h⟩⟩
  | @unpositioned n _ opening work indexClosed tableClosed hopening hwork =>
    rw [← List.append_assoc] at hlive' ⊢
    exact TuplesFirst.of_append (.openTable table (.ok n.table) :: (opening ++ work)) _
      (List.forall_mem_cons.2 ⟨hopen _,
        List.forall_mem_append.2 ⟨hopening.not_closes fun _ h => (by cases h), hwork.not_closes⟩⟩)
      Cursors.closes_closing fun _ => hlive'

theorem Opened.tuplesFirst (h : Opened table write after done told) (hlive : liveAfter told = heldBy after) :
    TuplesFirst 0 told := by
  cases h with
  | failed htaken => exact htaken.tuplesFirst hlive
  | taken htaken hpulled =>
    obtain ⟨work, closing, rfl, hwork, hclosing, hnone⟩ := hpulled.split
    rw [← List.append_assoc] at hlive ⊢
    refine .of_append _ _ (List.forall_mem_append.2 ⟨htaken.not_closes, hwork⟩) hclosing fun hne => ?_
    rw [hlive, hnone hne]
    rfl

end RowStore

import RowStore.Proofs.RequestLogs

/-!
# Calls in the middle of calls

A filter and a visitor are functions of the caller's, and may call the engine themselves, on the same transaction, while it
works for somebody else.  So a world is a database together with the scans that are kept on it, and before any call of an
engine reaches the database others may take a turn in the world (`interrupted`).

Turns are steady if they leave the world sound: of every cursor that nobody is busy with the history is settled, and those
of the scans that are kept stand (`Sound`), and if they say nothing of the cursors that somebody is busy with (`Untold`).
Then the interrupted engine is watched like the engine itself (`watched_interrupted`).
-/
namespace RowStore
namespace Memory

open Attempt

variable {α : Type}

/-! ## The world -/

/-- A database, the scans that are kept on it between calls, and the numbers of the cursors that were opened by somebody who
may write. -/
structure World where
  db : Database
  scans : List (Scan Cursor) := []
  writers : List Nat := []

/-- Cursors go by their numbers. -/
def namesOf (c : Cursors Cursor) : Cursors Nat := ⟨c.table.id, c.index.map Cursor.id⟩

/-- The numbers of the cursors that a scan holds. -/
def numbersOf : Progress Cursor → List Nat
  | .running held _ => held.cursors.list.map Cursor.id
  | .closed => []

/-- The cursors that a scan holds. -/
def leftOf : Progress Cursor → Option (Cursors Nat)
  | .running held _ => some (namesOf held.cursors)
  | .closed => none

namespace World

/-- A call has been made on the database, for somebody who may write or may not. -/
def become (w : World) (id : Nat) (write : Bool) (db : Database) : World where
  db := db
  scans := w.scans
  writers := if write then
      w.writers ++ List.range' (w.db.nextCursor id) (db.nextCursor id - w.db.nextCursor id)
    else w.writers

/-- Whether a cursor was opened by somebody who may write. -/
def signed (w : World) (i : Nat) : Bool := decide (i ∈ w.writers)

/-- The numbers of the cursors of all scans that are kept. -/
def numbers (w : World) : List Nat := w.scans.flatMap fun scan => numbersOf scan.progress

end World

/-- What others do in the world, one after the other, while a call goes on. -/
abbrev Turns := List (World → World)

/-- The next of the others takes a turn. -/
def takeTurn : Turns × World → Turns × World
  | ([], w) => ([], w)
  | (turn :: turns, w) => (turns, turn w)

section
variable (id : Nat) (write : Bool)

def onWorld (call : Action Database α) : Action (Turns × World) α := fun x =>
  let (turns, w) := takeTurn x
  let (r, db) := call w.db
  (r, (turns, w.become id write db))

def onWorldCursor (call : Action (Cursor × Database) α) : Action (Cursor × Turns × World) α := fun (c, x) =>
  let (turns, w) := takeTurn x
  let (r, (c, db)) := call (c, w.db)
  (r, (c, turns, w.become id write db))

def onWorldRow (call : Action (Tuple × Cursor × Database) α) : Action (Tuple × Cursor × Turns × World) α :=
  fun (tuple, c, x) =>
    let (turns, w) := takeTurn x
    let (r, (tuple, c, db)) := call (tuple, c, w.db)
    (r, (tuple, c, turns, w.become id write db))

/-- **The engine at work for a transaction, interrupted before each of its calls**: others take a turn first.  They may put
so many entries in front of a cursor. -/
def interrupted (entries : Nat) : Engine (Turns × World) Transaction Cursor where
  begin level := onWorld id write (engine.begin level)
  commit txn := onWorld id write (engine.commit txn)
  rollback txn := onWorld id write (engine.rollback txn)
  openTable txn schema := onWorld id write (engine.openTable txn schema)
  openIndex txn cursor index := onWorld id write (engine.openIndex txn cursor index)
  setLockMode mode := onWorldCursor id write (engine.setLockMode mode)
  lock mode := onWorldCursor id write (engine.lock mode)
  setClusterAccess := onWorldCursor id write engine.setClusterAccess
  searchTuple key := onWorldCursor id write (engine.searchTuple key)
  readTuple := onWorldCursor id write engine.readTuple
  search tuple mode := onWorldCursor id write (engine.search tuple mode)
  isPositioned := fun (c, _, w) => engine.isPositioned (c, w.db)
  hasNext := fun (c, _, w) => engine.hasNext (c, w.db)
  readRow := onWorldRow id write engine.readRow
  insertRow row := onWorldRow id write (engine.insertRow row)
  updateRow row := onWorldRow id write (engine.updateRow row)
  deleteRow := onWorldCursor id write engine.deleteRow
  advance direction := onWorldCursor id write (engine.advance direction)
  close := onWorldCursor id write engine.close
  letGoCursor c x :=
    let (turns, w) := takeTurn x
    (turns, w.become id write (engine.letGoCursor c w.db))
  tupleReleased x :=
    let (turns, w) := takeTurn x
    (turns, w.become id write (engine.tupleReleased w.db))
  entryBound := fun (c, _, w) => engine.entryBound (c, w.db) + entries

end

/-! ## Sound worlds -/

/-- What a world keeps of a scan: its tuple is live, its cursors are its own, and they stand. -/
def StandsIn (id : Nat) (w : World) : Progress Cursor → Prop
  | .running held _ => held.tuple.disposed = false ∧
      (∀ c ∈ held.cursors.list, c.transaction = id ∧ (c.closed = true ↔ .closed ∈ w.db.history id c.id)) ∧
      ∃ write, Serving (namesOf held.cursors) write (w.db.history id) ∧
        ∀ c ∈ held.cursors.list, w.signed c.id = write
  | .closed => True

/-- **Every cursor of a transaction's log is settled, unless a scan that is kept holds it or somebody is busy with it.** -/
structure Sound (id : Nat) (busy : List Nat) (w : World) : Prop where
  begun : id < w.db.nextTransaction
  numbered : ∀ e ∈ w.db.marks id, e.1 < w.db.nextCursor id
  signed : ∀ i ∈ w.writers, i < w.db.nextCursor id
  taken : ∀ i ∈ busy ++ w.numbers, i < w.db.nextCursor id
  apart : (busy ++ w.numbers).Nodup
  standing : ∀ scan ∈ w.scans, StandsIn id w scan.progress
  settled : ∀ i, i ∉ busy ++ w.numbers → w.db.history id i = [] ∨ Settled (w.signed i) (w.db.history id i)

/-- Nothing has been said of some cursors. -/
def Untold (id : Nat) (busy : List Nat) (w w' : World) : Prop :=
  ∀ i ∈ busy, w'.db.history id i = w.db.history id i ∧ w'.signed i = w.signed i

/-- **What others may do in the world**, whatever somebody is busy with. -/
def Steady (id : Nat) (turn : World → World) : Prop :=
  ∀ busy w, Sound id busy w → Sound id busy (turn w) ∧ Untold id busy w (turn w)

section
variable {id : Nat} {write : Bool} {busy names : List Nat} {w w' : World} {told : List (Deed Nat)}
  {cursors : List Cursor} {db : Database}

namespace Untold

theorem refl : Untold id busy w w := fun _ _ => ⟨rfl, rfl⟩

theorem trans {w'' : World} (h : Untold id busy w w') (h' : Untold id busy w' w'') : Untold id busy w w'' := fun i hi =>
  ⟨(h' i hi).1.trans (h i hi).1, (h' i hi).2.trans (h i hi).2⟩

theorem mono {some : List Nat} (h : Untold id busy w w') (hsome : ∀ i ∈ some, i ∈ busy) : Untold id some w w' :=
  fun i hi => h i (hsome i hi)

end Untold

theorem list_namesOf (c : Cursors Cursor) : (namesOf c).list = c.list.map Cursor.id := by
  obtain ⟨t, _ | i⟩ := c <;> rfl

theorem numbersOf_of_some {progress : Progress Cursor} {n : Cursors Nat} (h : leftOf progress = some n) :
    numbersOf progress = n.list := by
  cases progress with
  | closed => cases h
  | running held row =>
    cases h
    exact (list_namesOf held.cursors).symm

theorem numbersOf_of_none {progress : Progress Cursor} (h : leftOf progress = none) : numbersOf progress = [] := by
  cases progress with
  | closed => rfl
  | running held row => cases h

/-- A scan holds no cursor that it has not held before. -/
theorem Fared.mem_numbers {progress progress' : Progress Cursor} {histories : Nat → List Mark}
    (h : Fared (leftOf progress) (leftOf progress') write histories) (hi : i ∈ numbersOf progress') :
    i ∈ numbersOf progress := by
  cases hleft : leftOf progress' with
  | none =>
    rw [numbersOf_of_none hleft] at hi
    cases hi
  | some n =>
    rcases h with ⟨hsame, -⟩ | ⟨hnone, -⟩
    · rwa [numbersOf_of_some (hsame.symm.trans hleft), ← numbersOf_of_some hleft]
    · cases hnone.symm.trans hleft

/-- What it no longer holds is settled. -/
theorem Fared.settled {progress progress' : Progress Cursor} {histories : Nat → List Mark}
    (h : Fared (leftOf progress) (leftOf progress') write histories) (hi : i ∈ numbersOf progress)
    (hgone : i ∉ numbersOf progress') : Settled write (histories i) := by
  cases hleft : leftOf progress with
  | none =>
    rw [numbersOf_of_none hleft] at hi
    cases hi
  | some n =>
    rcases h with ⟨hsame, -⟩ | ⟨-, hsettled⟩
    · rw [numbersOf_of_some (hsame.trans hleft), ← numbersOf_of_some hleft] at hgone
      exact absurd hi hgone
    · rw [numbersOf_of_some hleft] at hi
      exact (hsettled n hleft).settled hi

/-- The cursors of a scan that stands were opened by one who may write or may not. -/
theorem StandsIn.serving {progress : Progress Cursor} (h : StandsIn id w progress) :
    ∃ write, (∀ n, leftOf progress = some n → Serving n write (w.db.history id)) ∧
      ∀ i ∈ numbersOf progress, w.signed i = write := by
  cases progress with
  | closed => exact ⟨false, fun _ hn => (by cases hn), fun _ hi => by cases hi⟩
  | running held row =>
    obtain ⟨-, -, write, hserving, hsigned⟩ := h
    refine ⟨write, fun n hn => ?_, fun i hi => ?_⟩
    · cases hn
      exact hserving
    · obtain ⟨c, hc, rfl⟩ := List.mem_map.1 hi
      exact hsigned c hc

theorem StandsIn.congr {progress : Progress Cursor} (h : StandsIn id w progress) (hkept : Untold id (numbersOf progress) w w') :
    StandsIn id w' progress := by
  cases progress with
  | closed => exact True.intro
  | running held row =>
    obtain ⟨hlive, hown, write, hserving, hsigned⟩ := h
    have hmem : ∀ c ∈ held.cursors.list, c.id ∈ numbersOf (.running held row) := fun c hc => List.mem_map_of_mem hc
    refine ⟨hlive, fun c hc => ?_, write, hserving.congr fun i hi => ?_, fun c hc => ?_⟩
    · rw [(hkept _ (hmem c hc)).1]
      exact hown c hc
    · rw [list_namesOf] at hi
      exact (hkept i hi).1
    · rw [(hkept _ (hmem c hc)).2]
      exact hsigned c hc

/-! ## A call in a sound world -/

theorem writers_become (hj : Journaled id names (w.db.history id) w.db told cursors db) :
    (w.become id write db).writers = if write then w.writers ++ openings told else w.writers := by
  unfold World.become
  dsimp only
  rw [hj.next, Nat.add_sub_cancel_left, ← hj.opened]

theorem signed_become (hj : Journaled id names (w.db.history id) w.db told cursors db) (i : Nat) :
    (w.become id write db).signed i = (w.signed i || (write && decide (i ∈ openings told))) := by
  unfold World.signed
  rw [writers_become hj]
  cases write <;> simp

theorem history_become (hj : Journaled id names (w.db.history id) w.db told cursors db) :
    db.history id = after told (w.db.history id) := by
  obtain ⟨more, hmore, -, hhistories⟩ := hj.grown
  funext i
  rw [← hhistories i]
  unfold Database.history
  rw [hmore, historyOf_append]

/-- Only cursors that were at hand or have been opened have more of a history. -/
theorem kept_become (hj : Journaled id names (w.db.history id) w.db told cursors db) {i : Nat}
    (hi : i ∉ names ++ openings told) : db.history id i = w.db.history id i ∧ (w.become id write db).signed i = w.signed i := by
  obtain ⟨more, hmore, hmine, -⟩ := hj.grown
  refine ⟨?_, ?_⟩
  · unfold Database.history
    have hsilent : historyOf more i = [] := historyOf_eq_nil fun e he heq => hi (heq ▸ hmine e he)
    rw [hmore, historyOf_append, hsilent, List.append_nil]
  · rw [signed_become hj, decide_eq_false fun hmem => hi (List.mem_append_right _ hmem), Bool.and_false, Bool.or_false]

namespace Sound

theorem new (h : Sound id busy w) (hj : Journaled id names (w.db.history id) w.db told cursors db) {i : Nat}
    (hi : i ∈ openings told) : i ∉ busy ++ w.numbers := fun hmem => by
  rw [hj.opened] at hi
  exact absurd (h.taken i hmem) (Nat.not_lt.2 (List.mem_range'_1.1 hi).1)

theorem unsigned (h : Sound id busy w) {i : Nat} (hi : w.db.nextCursor id ≤ i) : w.signed i = false :=
  decide_eq_false fun hmem => absurd (h.signed i hmem) (Nat.not_lt.2 hi)

theorem blank (h : Sound id busy w) {i : Nat} (hi : w.db.nextCursor id ≤ i) : w.db.history id i = [] :=
  historyOf_eq_nil fun e he heq => absurd (h.numbered e he) (by rw [heq]; exact Nat.not_lt.2 hi)

/-- **A call leaves the world sound**, and its caller busy with what it has opened. -/
theorem become (write : Bool) (h : Sound id busy w) (hj : Journaled id names (w.db.history id) w.db told cursors db)
    (hnames : ∀ i ∈ names, i ∈ busy) : Sound id (busy ++ openings told) (w.become id write db) := by
  have hnext : w.db.nextCursor id ≤ db.nextCursor id := hj.next ▸ Nat.le_add_right _ _
  have hopened : ∀ i ∈ openings told, i < db.nextCursor id := fun i hi => hj.lt_next (List.mem_append_right _ hi)
  have hnumbers : (w.become id write db).numbers = w.numbers := rfl
  have hkept : ∀ i, i ∉ busy ++ openings told → db.history id i = w.db.history id i ∧
      (w.become id write db).signed i = w.signed i := fun i hi => kept_become hj fun hmem =>
    hi ((List.mem_append.1 hmem).elim (fun hn => List.mem_append_left _ (hnames i hn)) fun ho => List.mem_append_right _ ho)
  constructor
  case begun => exact hj.numbering ▸ h.begun
  case numbered =>
    intro e he
    obtain ⟨more, hmore, hmine, -⟩ := hj.grown
    rw [show (w.become id write db).db.marks id = w.db.marks id ++ more from hmore] at he
    rcases List.mem_append.1 he with he | he
    · exact Nat.lt_of_lt_of_le (h.numbered e he) hnext
    · exact hj.lt_next (hmine e he)
  case signed =>
    intro i hi
    rw [writers_become hj] at hi
    cases write with
    | false => exact Nat.lt_of_lt_of_le (h.signed i hi) hnext
    | true =>
      exact (List.mem_append.1 hi).elim (fun hi => Nat.lt_of_lt_of_le (h.signed i hi) hnext) (hopened i)
  case taken =>
    intro i hi
    rw [List.mem_append, List.mem_append] at hi
    rcases hi with (hi | hi) | hi
    · exact Nat.lt_of_lt_of_le (h.taken i (List.mem_append_left _ hi)) hnext
    · exact hopened i hi
    · exact Nat.lt_of_lt_of_le (h.taken i (List.mem_append_right _ hi)) hnext
  case apart =>
    have hperm : ((busy ++ openings told) ++ w.numbers).Perm ((busy ++ w.numbers) ++ openings told) := by
      rw [List.append_assoc, List.append_assoc]
      exact List.perm_append_comm.append_left busy
    rw [hnumbers, hperm.nodup_iff, List.nodup_append']
    exact ⟨h.apart, hj.opened ▸ List.nodup_range', fun i hi hopen => h.new hj hopen hi⟩
  case standing =>
    intro scan hscan
    refine (h.standing scan hscan).congr fun i hi => hkept i fun hmem => ?_
    have hin : i ∈ w.numbers := List.mem_flatMap.2 ⟨scan, hscan, hi⟩
    rcases List.mem_append.1 hmem with hmem | hmem
    · exact (List.nodup_append'.1 h.apart).2.2 hmem hin
    · exact h.new hj hmem (List.mem_append_right _ hin)
  case settled =>
    intro i hi
    rw [hnumbers, List.mem_append, List.mem_append, not_or, not_or] at hi
    obtain ⟨hhistory, hsigned⟩ := hkept i fun hmem => (List.mem_append.1 hmem).elim hi.1.1 hi.1.2
    rw [hsigned, show (w.become id write db).db.history id i = w.db.history id i from hhistory]
    exact h.settled i fun hmem => (List.mem_append.1 hmem).elim hi.1.1 hi.2

/-- **Nobody need be busy with what is settled.** -/
theorem settle {done : List Nat} (h : Sound id (busy ++ done) w)
    (hdone : ∀ i ∈ done, w.db.history id i = [] ∨ Settled (w.signed i) (w.db.history id i)) : Sound id busy w where
  begun := h.begun
  numbered := h.numbered
  signed := h.signed
  taken i hi := h.taken i <| (List.mem_append.1 hi).elim
    (fun hi => List.mem_append_left _ (List.mem_append_left _ hi)) fun hi => List.mem_append_right _ hi
  apart := h.apart.sublist ((List.sublist_append_left busy done).append_right _)
  standing := h.standing
  settled i hi := by
    by_cases hmem : i ∈ done
    · exact hdone i hmem
    · refine h.settled i fun hin => hi ?_
      rw [List.mem_append, List.mem_append] at hin
      rcases hin with (hin | hin) | hin
      · exact List.mem_append_left _ hin
      · exact absurd hin hmem
      · exact List.mem_append_right _ hin

/-- **A scan is kept** if it stands, and if all else that somebody was busy with is settled. -/
theorem keeping {mine : List Nat} {scan : Scan Cursor} (h : Sound id (busy ++ mine) w)
    (hmine : ∀ i ∈ numbersOf scan.progress, i ∈ mine) (hdistinct : (numbersOf scan.progress).Nodup)
    (hstands : StandsIn id w scan.progress)
    (hsettled : ∀ i ∈ mine, i ∉ numbersOf scan.progress → Settled (w.signed i) (w.db.history id i)) :
    Sound id busy { w with scans := w.scans ++ [scan] } := by
  have hnumbers : ({ w with scans := w.scans ++ [scan] } : World).numbers = w.numbers ++ numbersOf scan.progress := by
    unfold World.numbers
    rw [List.flatMap_append, List.flatMap_singleton]
  have hnodup := List.nodup_append'.1 h.apart
  have hbusy := List.nodup_append'.1 hnodup.1
  constructor
  case begun => exact h.begun
  case numbered => exact h.numbered
  case signed => exact h.signed
  case taken =>
    intro i hi
    rw [hnumbers, List.mem_append, List.mem_append] at hi
    refine h.taken i ?_
    rw [List.mem_append, List.mem_append]
    rcases hi with hi | hi | hi
    · exact .inl (.inl hi)
    · exact .inr hi
    · exact .inl (.inr (hmine i hi))
  case apart =>
    rw [hnumbers, List.nodup_append', List.nodup_append']
    refine ⟨hbusy.1, ⟨hnodup.2.1, hdistinct, fun i hi hin => ?_⟩, fun i hi hin => ?_⟩
    · exact hnodup.2.2 (List.mem_append_right _ (hmine i hin)) hi
    · rcases List.mem_append.1 hin with hin | hin
      · exact hnodup.2.2 (List.mem_append_left _ hi) hin
      · exact hbusy.2.2 hi (hmine i hin)
  case standing =>
    intro other hother
    rcases List.mem_append.1 hother with hother | hother
    · exact h.standing other hother
    · exact List.mem_singleton.1 hother ▸ hstands
  case settled =>
    intro i hi
    rw [hnumbers, List.mem_append, List.mem_append, not_or, not_or] at hi
    -- what nobody is busy with any longer was settled before, or by the one who keeps the scan
    by_cases hin : i ∈ mine
    · exact .inr (hsettled i hin hi.2.2)
    · refine h.settled i fun hmem => ?_
      rw [List.mem_append, List.mem_append] at hmem
      exact hmem.elim (fun hmem => hmem.elim hi.1 hin) hi.2.1

/-- **Somebody takes a scan to use it.** -/
theorem withdraw {n : Nat} {scan : Scan Cursor} (h : Sound id busy w) (hscan : w.scans[n]? = some scan) :
    Sound id (busy ++ numbersOf scan.progress) { w with scans := w.scans.eraseIdx n } := by
  obtain ⟨hn, rfl⟩ := List.getElem?_eq_some_iff.1 hscan
  have hperm : (numbersOf w.scans[n].progress ++ ({ w with scans := w.scans.eraseIdx n } : World).numbers).Perm w.numbers :=
    (List.getElem_cons_eraseIdx_perm hn).flatMap_right fun scan : Scan Cursor => numbersOf scan.progress
  have hall : (busy ++ numbersOf w.scans[n].progress ++ ({ w with scans := w.scans.eraseIdx n } : World).numbers).Perm
      (busy ++ w.numbers) := by
    rw [List.append_assoc]
    exact hperm.append_left busy
  exact {
    begun := h.begun
    numbered := h.numbered
    signed := h.signed
    taken := fun i hi => h.taken i (hall.mem_iff.1 hi)
    apart := hall.nodup_iff.2 h.apart
    standing := fun scan hscan => h.standing scan (List.mem_of_mem_eraseIdx hscan)
    settled := fun i hi => h.settled i fun hmem => hi (hall.mem_iff.2 hmem) }

end Sound

/-! ## An interrupted engine -/

theorem noted_opened {d : Deed Nat} {i : Nat} (hi : i ∈ openings [d]) (history history' : List Mark) :
    noted i history d = noted i history' d := by
  cases d with
  | openTable table opened | openIndex opened =>
    cases opened with
    | error e => cases hi
    | ok j =>
      cases List.mem_singleton.1 (show i ∈ [j] from hi)
      exact (if_pos rfl).trans (if_pos rfl).symm
  | ask | tupleReleased | letGo => cases hi

/-- What was opened has the history that it has been given, whatever was known before. -/
theorem foldl_opened {i : Nat} : ∀ {told : List (Deed Nat)}, i ∈ openings told →
    ∀ history history', told.foldl (noted i) history = told.foldl (noted i) history'
  | [], hi, _, _ => by cases hi
  | d :: told, hi, history, history' => by
    rw [List.foldl_cons, List.foldl_cons]
    by_cases hrest : i ∈ openings told
    · exact foldl_opened hrest _ _
    · have hsplit : openings ([d] ++ told) = openings [d] ++ openings told := openings_append
      rw [List.singleton_append] at hsplit
      rw [hsplit, List.mem_append] at hi
      rw [noted_opened (hi.resolve_right hrest) history history']

/-- **Somebody is at work in the world**, with some cursors at hand, while others take turns. -/
structure Amid (id : Nat) (write : Bool) (busy names : List Nat) (start : World) (made : List (Deed Nat))
    (cursors : List Cursor) (x : Turns × World) : Prop where
  steady : ∀ turn ∈ x.1, Steady id turn
  sound : Sound id (busy ++ (names ++ openings made)) x.2
  kept : Untold id busy start x.2
  histories : ∀ i ∈ names ++ openings made, x.2.db.history id i = after made (start.db.history id) i
  named : ∀ i ∈ names, x.2.signed i = start.signed i
  opened : ∀ i ∈ openings made, x.2.signed i = write
  distinct : (cursors.map Cursor.id).Nodup
  own : ∀ c ∈ cursors, c.id ∈ names ++ openings made ∧ c.transaction = id ∧
    (c.closed = true ↔ .closed ∈ x.2.db.history id c.id)

namespace Amid

variable {start : World} {made : List (Deed Nat)} {x : Turns × World} {turns : Turns}

theorem takeTurn (h : Amid id write busy names start made cursors x) :
    Amid id write busy names start made cursors (takeTurn x) := by
  obtain ⟨_ | ⟨turn, turns⟩, w⟩ := x
  · exact h
  obtain ⟨hsound, hkept⟩ := h.steady turn List.mem_cons_self _ w h.sound
  have hmine : ∀ i ∈ names ++ openings made, (turn w).db.history id i = w.db.history id i ∧
      (turn w).signed i = w.signed i := fun i hi => hkept i (List.mem_append_right _ hi)
  exact {
    steady := fun turn hturn => h.steady turn (List.mem_cons_of_mem _ hturn)
    sound := hsound
    kept := h.kept.trans (hkept.mono fun i hi => List.mem_append_left _ hi)
    histories := fun i hi => (hmine i hi).1.trans (h.histories i hi)
    named := fun i hi => (hmine i (List.mem_append_left _ hi)).2.trans (h.named i hi)
    opened := fun i hi => (hmine i (List.mem_append_right _ hi)).2.trans (h.opened i hi)
    distinct := h.distinct
    own := fun c hc => by
      obtain ⟨hmem, htransaction, hiff⟩ := h.own c hc
      have hhistory : (turn w).db.history id c.id = w.db.history id c.id := (hmine c.id hmem).1
      refine ⟨hmem, htransaction, ?_⟩
      show _ ↔ _ ∈ (turn w).db.history id c.id
      rw [hhistory]
      exact hiff }

/-- What is at hand is what the log is known to say. -/
theorem journaled (h : Amid id write busy names start made cursors (turns, w)) :
    Journaled id (cursors.map Cursor.id) (w.db.history id) w.db [] cursors w.db :=
  .refl h.distinct (fun c hc => ⟨(h.own c hc).2.1, List.mem_map_of_mem hc, (h.own c hc).2.2⟩)
    (fun i hi => by
      obtain ⟨c, hc, rfl⟩ := List.mem_map.1 hi
      exact h.sound.taken _ (List.mem_append_left _ (List.mem_append_right _ (h.own c hc).1)))
    fun i hi => h.sound.blank hi

/-- **A call is made on the database.** -/
theorem become {cursors' : List Cursor} (h : Amid id write busy names start made cursors (turns, w))
    (hj : Journaled id (cursors.map Cursor.id) (w.db.history id) w.db told cursors' db) :
    Amid id write busy names start (made ++ told) cursors' (turns, w.become id write db) := by
  have hat : ∀ i ∈ cursors.map Cursor.id, i ∈ names ++ openings made := fun i hi => by
    obtain ⟨c, hc, rfl⟩ := List.mem_map.1 hi
    exact (h.own c hc).1
  have hopenings : names ++ openings (made ++ told) = (names ++ openings made) ++ openings told := by
    rw [openings_append, List.append_assoc]
  have hsound := h.sound.become write hj fun i hi => List.mem_append_right _ (hat i hi)
  have hold : ∀ i, i ∈ busy ++ (names ++ openings made) → i ∉ openings told := fun i hi hopen =>
    h.sound.new hj hopen (List.mem_append_left _ hi)
  have hsigned : ∀ i, i ∈ busy ++ (names ++ openings made) → (w.become id write db).signed i = w.signed i := fun i hi => by
    rw [signed_become hj, decide_eq_false (hold i hi), Bool.and_false, Bool.or_false]
  have hhistory : (w.become id write db).db.history id = after told (w.db.history id) := history_become hj
  exact {
    steady := h.steady
    sound := by
      rw [hopenings, ← List.append_assoc]
      exact hsound
    kept := h.kept.trans fun i hi => kept_become hj fun hmem => by
      rcases List.mem_append.1 hmem with hmem | hmem
      · exact (List.nodup_append'.1 (List.nodup_append'.1 h.sound.apart).1).2.2 hi (hat i hmem)
      · exact hold i (List.mem_append_left _ hi) hmem
    histories := fun i hi => by
      show (w.become id write db).db.history id i = _
      rw [hhistory, after_append]
      rw [hopenings] at hi
      rcases List.mem_append.1 hi with hi | hi
      · exact congrArg (told.foldl (noted i)) (h.histories i hi)
      · exact foldl_opened hi _ _
    named := fun i hi => (hsigned i (List.mem_append_right _ (List.mem_append_left _ hi))).trans (h.named i hi)
    opened := fun i hi => by
      rw [openings_append] at hi
      rcases List.mem_append.1 hi with hi | hi
      · exact (hsigned i (List.mem_append_right _ (List.mem_append_right _ hi))).trans (h.opened i hi)
      · -- the number is new, so nobody has signed for it yet
        have hnew : w.signed i = false := h.sound.unsigned <| by
          rw [hj.opened] at hi
          exact (List.mem_range'_1.1 hi).1
        show (w.become id write db).signed i = write
        rw [signed_become hj, decide_eq_true hi, hnew, Bool.and_true, Bool.false_or]
    distinct := hj.distinct
    own := fun c hc => by
      obtain ⟨htransaction, hmem, hiff⟩ := hj.own c hc
      refine ⟨?_, htransaction, ?_⟩
      · rw [hopenings]
        exact (List.mem_append.1 hmem).elim (fun hmem => List.mem_append_left _ (hat _ hmem))
          fun hmem => List.mem_append_right _ hmem
      · show _ ↔ _ ∈ (w.become id write db).db.history id c.id
        rw [hhistory]
        exact hiff }

end Amid

/-- What is known while somebody is at work in the world. -/
def amidWatch (id : Nat) (write : Bool) (busy names : List Nat) (start : World) : Watch (Turns × World) Cursor Nat where
  name := Cursor.id
  holds made cursors _ x := Amid id write busy names start made cursors x

end

section
variable {id : Nat} {write : Bool} {busy names : List Nat} {start : World} {call : Ask} {tuples : Nat}
  {cursors : List Cursor}

theorem asked_onWorld {m : Action (Cursor × Database) α}
    (h : ∀ names known db, (journalWatch id names known db).Asked m call) :
    (amidWatch id write busy names start).Asked (onWorldCursor id write m) call := by
  rintro cursors tuples i made ⟨c, x⟩ ⟨rfl, hamid⟩
  have hturn := Amid.takeTurn hamid
  obtain ⟨told, rfl, hname, hj⟩ := h _ _ _ cursors tuples c.id [] (c, (takeTurn x).2.db) ⟨rfl, hturn.journaled⟩
  exact ⟨_, rfl, hname, hturn.become hj⟩

theorem rowAsked_onWorld {m : Action (Tuple × Cursor × Database) α}
    (h : ∀ names known db, (journalWatch id names known db).RowAsked m call) :
    (amidWatch id write busy names start).RowAsked (onWorldRow id write m) call := by
  rintro cursors tuples i made ⟨tuple, c, x⟩ ⟨hlive, rfl, hamid⟩
  have hturn := Amid.takeTurn hamid
  obtain ⟨told, rfl, hlive', hname, hj⟩ := h _ _ _ cursors tuples c.id [] (tuple, c, (takeTurn x).2.db)
    ⟨hlive, rfl, hturn.journaled⟩
  exact ⟨_, rfl, hlive', hname, hturn.become hj⟩

theorem makes_onWorld {m : Action (Cursor × Database) Tuple}
    (h : ∀ names known db, (journalWatch id names known db).Makes m call) :
    (amidWatch id write busy names start).Makes (onWorldCursor id write m) call := by
  rintro cursors tuples i made ⟨c, x⟩ ⟨rfl, hamid⟩
  have hturn := Amid.takeTurn hamid
  obtain ⟨told, rfl, hmade⟩ := h _ _ _ cursors tuples c.id [] (c, (takeTurn x).2.db) ⟨rfl, hturn.journaled⟩
  refine ⟨_, rfl, ?_⟩
  unfold onWorldCursor
  dsimp only
  rcases hm : m (c, (takeTurn x).2.db) with ⟨e | tuple, c', db⟩ <;> rw [hm] at hmade
  · exact ⟨hmade.1, hturn.become hmade.2⟩
  · exact ⟨hmade.1, hmade.2.1, hturn.become hmade.2.2⟩

theorem opened_onWorld {m : Action Database Cursor} (deed : Except Error Nat → Deed Nat)
    (h : ∀ names known db, Tells ((journalWatch id names known db).idle cursors tuples) m
      (fun r told => told = [deed (r.map Cursor.id)]) ((journalWatch id names known db).opened cursors tuples)) :
    Tells ((amidWatch id write busy names start).idle cursors tuples) (onWorld id write m)
      (fun r told => told = [deed (r.map Cursor.id)]) ((amidWatch id write busy names start).opened cursors tuples) := by
  intro made x hamid
  have hturn := Amid.takeTurn hamid
  obtain ⟨told, rfl, hopened⟩ := h _ _ _ [] (takeTurn x).2.db hturn.journaled
  refine ⟨_, rfl, ?_⟩
  unfold onWorld
  dsimp only
  rcases hm : m (takeTurn x).2.db with ⟨e | c, db⟩ <;> rw [hm] at hopened
  · exact hturn.become hopened
  · exact hturn.become hopened

end

/-- **An interrupted engine is watched.** -/
theorem watched_interrupted (txn : Transaction) (write : Bool) (entries : Nat) (busy names : List Nat) (start : World) :
    (interrupted txn.id write entries).Watched (amidWatch txn.id write busy names start) txn where
  -- each call comes behind a turn of the others, and then tells of itself what it tells of itself in the log
  perm hperm hamid :=
    { hamid with
      distinct := (hperm.map _).nodup_iff.1 (Amid.distinct hamid)
      own := fun c hc => Amid.own hamid c (hperm.mem_iff.2 hc) }
  openTable schema cursors tuples := opened_onWorld (.openTable schema.name) fun names known db =>
    (watched_journal txn names known db).openTable schema cursors tuples
  openIndex table index cursors tuples := opened_onWorld .openIndex fun names known db =>
    (watched_journal txn names known db).openIndex table index cursors tuples
  setLockMode mode := asked_onWorld fun names known db => (watched_journal txn names known db).setLockMode mode
  lock mode := asked_onWorld fun names known db => (watched_journal txn names known db).lock mode
  setClusterAccess := asked_onWorld fun names known db => (watched_journal txn names known db).setClusterAccess
  searchTuple key := makes_onWorld fun names known db => (watched_journal txn names known db).searchTuple key
  readTuple := makes_onWorld fun names known db => (watched_journal txn names known db).readTuple
  search tuple mode := asked_onWorld fun names known db => (watched_journal txn names known db).search tuple mode
  readRow := rowAsked_onWorld fun names known db => (watched_journal txn names known db).readRow
  insertRow cells := rowAsked_onWorld fun names known db => (watched_journal txn names known db).insertRow cells
  updateRow cells := rowAsked_onWorld fun names known db => (watched_journal txn names known db).updateRow cells
  deleteRow := asked_onWorld fun names known db => (watched_journal txn names known db).deleteRow
  advance direction := asked_onWorld fun names known db => (watched_journal txn names known db).advance direction
  close := asked_onWorld fun names known db => (watched_journal txn names known db).close
  tupleReleased hamid :=
    (Amid.takeTurn hamid).become ((Amid.takeTurn hamid).journaled.silent rfl rfl rfl fun _ _ => rfl)
  letGo {_ c _ _ _} hamid := (Amid.takeTurn hamid).become
    (released (d := .letGo c.id) (Amid.takeTurn hamid).journaled rfl fun _ _ => rfl).tail

end Memory
end RowStore

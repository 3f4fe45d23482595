import RowStore.Proofs.CursorPlaces
import RowStore.Proofs.ScanDeeds
import RowStore.Proofs.ScanRuns

/-!
# Scans move onward

Others may call the engine before each call that a scan makes (`Track`).  What the scan reads is noted, and stays behind
the place of its cursor (`Onward`): a read adds the entry at the place, and an advance leads beyond it.  So the entries
that a scan reads are in the strict order of its direction, whatever the others do (`scans_move_onward`).
-/
namespace RowStore

open Attempt

variable {α : Type}

namespace Memory

/-! ## Scans amid others -/

/-- A database amid the calls of others, and what has been read on it. -/
structure Track where
  db : Database
  /-- What others call before each coming call of the engine. -/
  turns : List (List Call)
  /-- The cursors that have read an entry, each with the database in which it has done so. -/
  readings : List (Cursor × Database) := []

namespace Track

def turn : Track → Track
  | ⟨db, [], readings⟩ => ⟨db, [], readings⟩
  | ⟨db, calls :: turns, readings⟩ => ⟨calls.foldl (fun db call => call.effect db) db, turns, readings⟩

theorem readings_turn (x : Track) : x.turn.readings = x.readings := by
  obtain ⟨db, _ | ⟨calls, turns⟩, readings⟩ := x <;> rfl

def on (call : Action Database α) : Action Track α := fun x =>
  let x := x.turn
  let (r, db) := call x.db
  (r, { x with db })

def onCursor (call : Action (Cursor × Database) α) : Action (Cursor × Track) α := fun (c, x) =>
  let x := x.turn
  let (r, (c, db)) := call (c, x.db)
  (r, (c, { x with db }))

def onRow (call : Action (Tuple × Cursor × Database) α) : Action (Tuple × Cursor × Track) α := fun (tuple, c, x) =>
  let x := x.turn
  let (r, (tuple, c, db)) := call (tuple, c, x.db)
  (r, (tuple, c, { x with db }))

/-- A read that succeeds is noted. -/
def readRow : Action (Tuple × Cursor × Track) Unit := fun (tuple, c, x) =>
  let x := x.turn
  match engine.readRow (tuple, c, x.db) with
  | (.ok (), (tuple, c', db)) => (.ok (), (tuple, c', { x with db, readings := x.readings ++ [(c, x.db)] }))
  | (.error e, (tuple, c', db)) => (.error e, (tuple, c', { x with db }))

/-- **The engine while others take a turn before each of its calls**, and with its reads noted.  The others may put so
many entries in front of a cursor. -/
def watched (entries : Nat) : Engine Track Transaction Cursor where
  begin level := on (engine.begin level)
  commit txn := on (engine.commit txn)
  rollback txn := on (engine.rollback txn)
  openTable txn schema := on (engine.openTable txn schema)
  openIndex txn cursor index := on (engine.openIndex txn cursor index)
  setLockMode mode := onCursor (engine.setLockMode mode)
  lock mode := onCursor (engine.lock mode)
  setClusterAccess := onCursor engine.setClusterAccess
  searchTuple key := onCursor (engine.searchTuple key)
  readTuple := onCursor engine.readTuple
  search tuple mode := onCursor (engine.search tuple mode)
  isPositioned := fun (c, x) => engine.isPositioned (c, x.db)
  hasNext := fun (c, x) => engine.hasNext (c, x.db)
  readRow := readRow
  insertRow row := onRow (engine.insertRow row)
  updateRow row := onRow (engine.updateRow row)
  deleteRow := onCursor engine.deleteRow
  advance direction := onCursor (engine.advance direction)
  close := onCursor engine.close
  letGoCursor c x := { x.turn with db := engine.letGoCursor c x.turn.db }
  tupleReleased x := { x.turn with db := engine.tupleReleased x.turn.db }
  entryBound := fun (c, x) => engine.entryBound (c, x.db) + entries

/-- A scan is opened and so many rows are asked of it, whether or not there are any. -/
def scan (entries : Nat) (txn : Transaction) (plan : Plan) (write : Bool) (pulls : Nat) (x : Track) : Track :=
  match Scan.open (watched entries) txn plan write x with
  | (.error _, x) => x
  | (.ok scan, x) => ((quietly (Scan.next (watched entries)))^[pulls] (scan, x)).2

/-! ## What reads nothing -/

variable {entries : Nat} {at' : Nat × TableSchema × Option Index} {read : List (Cursor × Database)}

/-- The cursor is where it belongs, and certain reads have been noted. -/
def Noted (at' : Nat × TableSchema × Option Index) (read : List (Cursor × Database)) (s : Cursor × Track) : Prop :=
  s.1.station = at' ∧ s.2.readings = read

theorem keeps_onCursor {call : Action (Cursor × Database) α} (h : Cursor.Stationary call) :
    Keeps (Noted at' read) (onCursor call) := fun s hs =>
  ⟨h at' (s.1, s.2.turn.db) hs.1, s.2.readings_turn.trans hs.2⟩

theorem keeps_position (key : Key) (mode : SearchMode) :
    Keeps (Noted at' read) ((watched entries).position key mode) := by
  refine Keeps.holding (keeps_onCursor (Cursor.stationary_searchTuple key)) ?_ fun tuple s hs => ?_
  · refine Keeps.bind (Keeps.outcome ?_) fun found => Keeps.bind ?_ fun _ => Keeps.ofExcept _
    · exact Keeps.bind (fun _ hs => hs) fun tuple => (keeps_onCursor (Cursor.stationary_search tuple mode)).below
    · rintro ⟨tuple, s⟩ hs
      unfold Engine.disposeTuple
      rw [Tuple.dispose_apply]
      split
      · exact hs
      · exact ⟨hs.1, s.2.readings_turn.trans hs.2⟩
  · obtain ⟨c, x⟩ := s
    have hreleased : (tuple.letGo (watched entries).tupleReleased x).readings = x.readings := by
      unfold Tuple.letGo
      split
      · rfl
      · exact x.readings_turn
    exact ⟨hs.1, hreleased.trans hs.2⟩

theorem keeps_start (plan : Plan) (key : Key) (write : Bool) :
    Keeps (Noted at' read) (Scan.start (watched entries) plan key write) := by
  have hrest : Keeps (Noted at' read) (do
      let _ ← (watched entries).position key plan.searchMode
      (watched entries).readTuple) :=
    (keeps_position key _).bind fun _ => keeps_onCursor Cursor.stationary_readTuple
  unfold Scan.start
  cases write with
  | false => exact hrest
  | true =>
    exact ((keeps_onCursor (Cursor.stationary_setLockMode _)).bind fun _ =>
      keeps_onCursor (Cursor.stationary_lock _)).bind fun _ => hrest

theorem readings_closeCursors (cursors : Cursors Cursor) (x : Track) :
    (cursors.close (watched entries) x).2.readings = x.readings := by
  obtain ⟨table, _ | index⟩ := cursors
  · exact (readings_turn _).trans (readings_turn _)
  · exact (readings_turn _).trans ((readings_turn _).trans ((readings_turn _).trans (readings_turn _)))

theorem readings_closeHoldings (held : Holdings Cursor) (x : Track) :
    (held.close (watched entries) x).2.readings = x.readings := by
  have hdispose : (Tuple.dispose (watched entries).tupleReleased (held.tuple, x)).2.2.readings = x.readings := by
    rw [Tuple.dispose_apply]
    split
    · rfl
    · exact readings_turn x
  exact (readings_closeCursors _ _).trans hdispose

/-! ## Opening -/

theorem yields_openTable (txn : Transaction) (schema : TableSchema) (x : Track) :
    Yields ((watched entries).openTable txn schema) x fun r x' => x'.readings = x.readings ∧
      ∀ c, r = .ok c → c.station = (txn.id, schema, none) :=
  ⟨x.readings_turn, Cursor.yields_create txn.id schema none x.turn.db⟩

variable (entries) in
theorem yields_openIndex (txn : Transaction) (table : Cursor) (index : Index) (x : Track)
    (hindex : table.schema.secondary? index.name = some index) :
    Yields ((watched entries).openIndex txn table index) x fun r x' => x'.readings = x.readings ∧
      ∀ c, r = .ok c → c.station = (txn.id, table.schema, some index) :=
  ⟨x.readings_turn, Cursor.yields_createOnIndex txn.id table index x.turn.db hindex⟩

variable (entries) in
theorem yields_openIndexCursor (txn : Transaction) {schema : TableSchema} {index : Option Index} {table : Cursor}
    (x : Track) (hindex : ∀ i ∈ index, schema.secondary? i.name = some i)
    (htable : table.station = (txn.id, schema, none)) :
    Yields (Scan.openIndexCursor (watched entries) txn index) (table, x) fun r s => s.1 = table ∧
      s.2.readings = x.readings ∧ ∀ found, r = .ok found →
        (Cursors.reader ⟨table, found⟩).station = (txn.id, schema, index) := by
  obtain rfl : table.schema = schema := congrArg (fun at' => at'.2.1) htable
  unfold Scan.openIndexCursor
  cases index with
  | none =>
    refine ⟨rfl, rfl, ?_⟩
    rintro found ⟨⟩
    exact htable
  | some index =>
    obtain ⟨hread, hopened⟩ := yields_openIndex entries txn table index x (hindex index rfl)
    unfold Yields
    dsimp only
    rcases hopen : (watched entries).openIndex txn table index x with ⟨e | c, x'⟩ <;> rw [hopen] at hread hopened
    · exact ⟨rfl, hread, fun _ h => by cases h⟩
    have haccess : Noted c.station x'.readings (onCursor Cursor.setClusterAccess (c, x')).2 :=
      keeps_onCursor Cursor.stationary_setClusterAccess (c, x') ⟨rfl, rfl⟩
    dsimp only
    rcases hset : (watched entries).setClusterAccess (c, x') with ⟨e | _, c', x''⟩ <;>
      rw [show onCursor Cursor.setClusterAccess (c, x') = _ from hset] at haccess
    · exact ⟨rfl, (readings_turn _).trans (haccess.2.trans hread), fun _ h => by cases h⟩
    · refine ⟨rfl, haccess.2.trans hread, ?_⟩
      rintro found ⟨⟩
      exact haccess.1.trans (hopened c rfl)

theorem yields_onActiveCursor {call : Action (Cursor × Track) α} {cursors : Cursors Cursor} {x : Track}
    {M : Except Error α → Cursor × Track → Prop} (h : Yields call (cursors.reader, x) M) :
    Yields (Cursors.onActive call) (cursors, x) fun r s => M r (s.1.reader, s.2) := by
  obtain ⟨table, _ | index⟩ := cursors <;> exact h

/-- **Opening a scan reads nothing**, and the cursor that it reads through belongs to its index. -/
theorem yields_take (txn : Transaction) (plan : Plan) (write : Bool) (x : Track) {index : Option Index}
    (hindex : plan.target.secondaryIndex = .ok index) :
    Yields (Scan.take (watched entries) txn plan write) x fun r x' => x'.readings = x.readings ∧
      ∀ held, r = .ok held → held.cursors.reader.station = (txn.id, plan.target.schema, index) := by
  unfold Scan.take
  refine Yields.ofExcept_bind (fun index' hindex' => ?_) fun _ => ⟨rfl, fun _ h => by cases h⟩
  obtain rfl : index = index' := by
    rw [hindex] at hindex'
    exact Except.ok.inj hindex'
  refine Yields.ofExcept_bind (fun columns _ => ?_) fun _ => ⟨rfl, fun _ h => by cases h⟩
  refine Yields.ofExcept_bind (fun key _ => ?_) fun _ => ⟨rfl, fun _ h => by cases h⟩
  refine Yields.bind (yields_openTable txn plan.target.schema x) ?_ ?_
  · rintro table x' ⟨hread, htable⟩
    obtain ⟨hsame, hread', hreader⟩ := yields_openIndexCursor entries txn x' (Target.secondary?_eq hindex)
      (htable table rfl)
    unfold Yields
    dsimp only
    rcases hopen : Scan.openIndexCursor (watched entries) txn index (table, x') with ⟨e | found, table', x₂⟩ <;>
      rw [hopen] at hsame hread' hreader
    · exact ⟨(readings_closeCursors _ _).trans (hread'.trans hread), fun _ h => by cases h⟩
    obtain rfl : table' = table := hsame
    have hkept : Yields (Scan.start (watched entries) plan key write) (Cursors.reader ⟨table', found⟩, x₂)
        fun _ => Noted (txn.id, plan.target.schema, index) x.readings :=
      keeps_start plan key write _ ⟨hreader found rfl, hread'.trans hread⟩
    have hstart := yields_onActiveCursor hkept
    unfold Yields at hstart
    dsimp only
    rcases hstarted : Cursors.onActive (Scan.start (watched entries) plan key write) (⟨table', found⟩, x₂) with
      ⟨e | tuple, cursors, x₃⟩ <;> rw [hstarted] at hstart
    · exact ⟨(readings_closeCursors _ _).trans hstart.2, fun _ h => by cases h⟩
    · refine ⟨hstart.2, ?_⟩
      rintro held ⟨⟩
      exact hstart.1
  · rintro e x' ⟨hread, -⟩
    exact ⟨hread, fun _ h => by cases h⟩

/-! ## Reading in order -/

/-- A scan has read an entry of its index: one in the table that its transaction sees, at the place of its cursor. -/
structure Reads (target : Target) (id : Nat) (key : Key) (reading : Cursor × Database) : Prop where
  transaction : reading.1.transaction = id
  schema : reading.1.schema = target.schema
  index : target.secondaryIndex = .ok reading.1.index
  entry : ∃ entries place, reading.1.RestsOver reading.2 place entries ∧ key ∈ entries.keys ∧ Key.order key place = .eq

/-- **The entries that have been read are in the strict order of a direction.** -/
def InOrder (plan : Plan) (id : Nat) (readings : List (Cursor × Database)) : Prop :=
  ∃ keys, List.Forall₂ (Reads plan.target id) keys readings ∧ keys.Pairwise (OrderedMap.Beyond plan.direction)

/-- All that has been read is before the place of the cursor. -/
def Onward (plan : Plan) (id : Nat) (s : Cursor × Track) : Prop :=
  ∃ keys, List.Forall₂ (Reads plan.target id) keys s.2.readings ∧ keys.Pairwise (OrderedMap.Beyond plan.direction) ∧
    ∀ place, s.1.position = some place → ∀ key ∈ keys, OrderedMap.Beyond plan.direction key place

/-- All that has been read is before whatever is beyond the place of the cursor. -/
def JustRead (plan : Plan) (id : Nat) (s : Cursor × Track) : Prop :=
  ∃ keys, List.Forall₂ (Reads plan.target id) keys s.2.readings ∧ keys.Pairwise (OrderedMap.Beyond plan.direction) ∧
    ∀ place next, s.1.position = some place → OrderedMap.Beyond plan.direction place next →
      ∀ key ∈ keys, OrderedMap.Beyond plan.direction key next

variable {plan : Plan} {id : Nat} {index : Option Index} {c : Cursor} {x : Track}

theorem Onward.inOrder (h : Onward plan id (c, x)) : InOrder plan id x.readings := by
  obtain ⟨keys, hreads, hpairwise, -⟩ := h
  exact ⟨keys, hreads, hpairwise⟩

theorem JustRead.inOrder (h : JustRead plan id (c, x)) : InOrder plan id x.readings := by
  obtain ⟨keys, hreads, hpairwise, -⟩ := h
  exact ⟨keys, hreads, hpairwise⟩

/-- **A read goes on behind what has been read.** -/
theorem yields_readRow (hindex : plan.target.secondaryIndex = .ok index) (tuple : Tuple)
    (hstation : c.station = (id, plan.target.schema, index)) (h : Onward plan id (c, x)) :
    Yields readRow (tuple, c, x) fun r s => InOrder plan id s.2.2.readings ∧
      (r = .ok () → s.2.1 = c ∧ JustRead plan id s.2) := by
  have hinOrder := h.inOrder
  obtain ⟨keys, hreads, hpairwise, hbefore⟩ := h
  obtain ⟨hcursor, hread⟩ := Cursor.yields_readRow tuple c x.turn.db
  rw [← readings_turn x] at hinOrder hreads
  unfold Yields readRow
  dsimp only
  rcases hrow : engine.readRow (tuple, c, x.turn.db) with ⟨e | _, tuple', c', db⟩ <;>
    rw [show Cursor.readRow (tuple, c, x.turn.db) = _ from hrow] at hcursor hread
  · exact ⟨hinOrder, fun h => by cases h⟩
  obtain rfl : c' = c := hcursor
  obtain ⟨entries, place, hrests, key, hkey, heq⟩ := hread rfl
  have hreads' : List.Forall₂ (Reads plan.target id) (keys ++ [key]) (x.turn.readings ++ [(c', x.turn.db)]) := by
    refine List.rel_append hreads (.cons ?_ .nil)
    obtain ⟨htransaction, hrest⟩ := Prod.mk.inj hstation
    obtain ⟨hschema, hindex'⟩ := Prod.mk.inj hrest
    exact ⟨htransaction, hschema, by rw [hindex, ← hindex'], entries, place, hrests, hkey, heq⟩
  have hlast : ∀ before ∈ keys, OrderedMap.Beyond plan.direction before key := fun before hbefore' =>
    (hbefore place hrests.1 before hbefore').of_eq_right (Std.OrientedCmp.eq_symm heq)
  have hpairwise' : (keys ++ [key]).Pairwise (OrderedMap.Beyond plan.direction) := by
    rw [List.pairwise_append]
    refine ⟨hpairwise, List.pairwise_singleton _ _, fun before hbefore' last hlast' => ?_⟩
    obtain rfl := List.mem_singleton.1 hlast'
    exact hlast before hbefore'
  have hjust : JustRead plan id (c', { x.turn with db, readings := x.turn.readings ++ [(c', x.turn.db)] }) := by
    refine ⟨keys ++ [key], hreads', hpairwise', fun place' next hplace' hnext before hbefore' => ?_⟩
    obtain rfl : place = place' := Option.some.inj (hrests.1.symm.trans hplace')
    rcases List.mem_append.1 hbefore' with hbefore' | hbefore'
    · exact (hbefore place hrests.1 before hbefore').trans hnext
    · obtain rfl := List.mem_singleton.1 hbefore'
      exact .of_eq heq hnext
  exact ⟨hjust.inOrder, fun _ => ⟨rfl, hjust⟩⟩

variable (entries) in
/-- **An advance moves the cursor behind what has been read.** -/
theorem yields_advance (h : JustRead plan id (c, x)) :
    Yields ((watched entries).advance plan.direction) (c, x) fun r s => InOrder plan id s.2.readings ∧
      (r = .ok () → s.1.station = c.station ∧ Onward plan id s) := by
  have hinOrder := h.inOrder
  obtain ⟨keys, hreads, hpairwise, hbefore⟩ := h
  have hmove := Cursor.yields_advance plan.direction c x.turn.db
  rw [← readings_turn x] at hinOrder hreads
  refine ⟨hinOrder, fun hok => ?_⟩
  obtain ⟨entries', place, hrests, hmoved⟩ := hmove hok
  have hcursor : ((watched entries).advance plan.direction (c, x)).2.1 =
      { c with position := entries'.step place plan.direction } := hmoved
  rw [hcursor]
  refine ⟨rfl, keys, hreads, hpairwise, fun next hnext => ?_⟩
  rw [hcursor] at hnext
  exact hbefore place next hrests.1 (Cursor.Entries.beyond_step hnext)

/-- **A scan reads on in order**, however many entries it passes over, and rests behind them if it goes on. -/
theorem yields_readOn (hindex : plan.target.secondaryIndex = .ok index) : ∀ (fuel : Nat) (tuple : Tuple) {c : Cursor}
    {x : Track}, c.station = (id, plan.target.schema, index) → Onward plan id (c, x) →
      Yields (Scan.readOn (watched entries) plan fuel) (tuple, c, x) fun r s => InOrder plan id s.2.2.readings ∧
        ∀ row, r = .ok (some row) → s.2.1.station = (id, plan.target.schema, index) ∧ Onward plan id s.2
  | 0, _, _, _, _, h => ⟨h.inOrder, fun _ hrow => by cases hrow⟩
  | fuel + 1, tuple, c, x, hstation, h => by
    refine Yields.state_bind ?_
    dsimp only
    split
    · exact ⟨h.inOrder, fun _ hrow => by cases hrow⟩
    -- an entry that the scan passes over has been read all the same, so it is noted before the scan advances
    refine Yields.bind (yields_readRow hindex tuple hstation h) ?_ fun _ _ hread =>
      ⟨hread.1, fun _ hrow => by cases hrow⟩
    rintro ⟨⟩ ⟨tuple, c', x⟩ ⟨hinOrder, hread⟩
    obtain ⟨rfl, hjust⟩ := hread rfl
    refine Yields.held_bind (Yields.ofExcept_bind (fun row _ => ?_) fun _ => ⟨hinOrder, fun _ hrow => by cases hrow⟩)
    refine Yields.bind (M := fun _ s => s.2 = (c', x)) ?_ ?_ ?_
    · unfold Yields Tuple.clear
      rw [Tuple.setValues_apply]
      split <;> rfl
    · rintro ⟨⟩ ⟨tuple, s⟩ rfl
      split
      · exact ⟨hinOrder, fun _ hrow => by cases hrow⟩
      refine Yields.bind (yields_advance entries hjust).below ?_ ?_
      · rintro ⟨⟩ ⟨tuple, c, x⟩ ⟨rfl, hinOrder, hadvance⟩
        obtain ⟨hmoved, honward⟩ := hadvance rfl
        have hstation' : c.station = (id, plan.target.schema, index) := hmoved.trans hstation
        split
        · exact ⟨hinOrder, fun _ _ => ⟨hstation', honward⟩⟩
        · exact yields_readOn hindex fuel tuple hstation' honward
      · rintro e ⟨tuple, s⟩ ⟨-, hinOrder, -⟩
        exact ⟨hinOrder, fun _ hrow => by cases hrow⟩
    · rintro e ⟨tuple, s⟩ rfl
      exact ⟨hinOrder, fun _ hrow => by cases hrow⟩

theorem yields_onHoldings {call : Action (Tuple × Cursor × Track) α} {held : Holdings Cursor}
    {M : Except Error α → Tuple × Cursor × Track → Prop} (h : Yields call (held.tuple, held.cursors.reader, x) M) :
    Yields (Holdings.onActive call) (held, x) fun r s => M r (s.1.tuple, s.1.cursors.reader, s.2) := by
  obtain ⟨tuple, table, _ | index⟩ := held <;> exact h

/-- How a scan stands between two pulls: what it has read is in order and before the place of its cursor. -/
def Stands (plan : Plan) (id : Nat) (index : Option Index) : Progress Cursor × Track → Prop
  | (.running held _, x) => held.cursors.reader.station = (id, plan.target.schema, index) ∧
      Onward plan id (held.cursors.reader, x)
  | (.closed, x) => InOrder plan id x.readings

theorem Stands.inOrder {progress : Progress Cursor} (h : Stands plan id index (progress, x)) :
    InOrder plan id x.readings := by
  cases progress with
  | running held row => exact h.2.inOrder
  | closed => exact h

variable (entries) in
/-- **Reading ahead keeps to the order.** -/
theorem yields_readAhead (hindex : plan.target.secondaryIndex = .ok index) {held : Holdings Cursor}
    (hstation : held.cursors.reader.station = (id, plan.target.schema, index))
    (h : Onward plan id (held.cursors.reader, x)) : Yields (Scan.readAhead (watched entries) plan held) x fun r x' =>
      Stands plan id index (r.toOption.getD .closed, x') := by
  have hwalk : Yields (fun here => Scan.readOn (watched entries) plan ((watched entries).entryBound here.2 + 1) here)
      (held.tuple, held.cursors.reader, x) fun r s => InOrder plan id s.2.2.readings ∧ ∀ row, r = .ok (some row) →
        s.2.1.station = (id, plan.target.schema, index) ∧ Onward plan id s.2 :=
    yields_readOn hindex ((watched entries).entryBound (held.cursors.reader, x) + 1) held.tuple hstation h
  have hread := yields_onHoldings hwalk
  unfold Yields at hread
  unfold Yields Scan.readAhead
  dsimp only
  rcases hwalked : Holdings.onActive (fun here => Scan.readOn (watched entries) plan
    ((watched entries).entryBound here.2 + 1) here) (held, x) with ⟨e | _ | row, held', x'⟩ <;> rw [hwalked] at hread
  · show InOrder plan id (held'.close (watched entries) x').2.readings
    rw [readings_closeHoldings]
    exact hread.1
  · have hclosed : InOrder plan id (held'.close (watched entries) x').2.readings := by
      rw [readings_closeHoldings]
      exact hread.1
    dsimp only
    rcases hclose : held'.close (watched entries) x' with ⟨e | _, x₂⟩ <;> rw [hclose] at hclosed <;> exact hclosed
  · exact hread.2 row rfl

variable (entries) in
/-- **A scan that is opened has read in order.** -/
theorem yields_open (txn : Transaction) (plan : Plan) (write : Bool) (hx : x.readings = []) :
    Yields (Scan.open (watched entries) txn plan write) x fun r x' => InOrder plan txn.id x'.readings ∧
      ∀ scan, r = .ok scan → scan.plan = plan ∧ ∃ index, plan.target.secondaryIndex = .ok index ∧
        Stands plan txn.id index (scan.progress, x') := by
  have hnothing : ∀ {x' : Track}, x'.readings = [] → InOrder plan txn.id x'.readings := fun hx' =>
    ⟨[], hx' ▸ .nil, .nil⟩
  cases hindex : plan.target.secondaryIndex with
  | error e =>
    have hopen : Scan.open (watched entries) txn plan write x = (.error e, x) := by
      unfold Scan.open Scan.take
      rw [hindex]
      rfl
    unfold Yields
    rw [hopen]
    exact ⟨hnothing hx, fun _ h => by cases h⟩
  | ok index =>
    refine Yields.bind (yields_take txn plan write x hindex) ?_ fun e x' h =>
      ⟨hnothing (h.1.trans hx), fun _ h => by cases h⟩
    rintro held x' ⟨hread, hstation⟩
    have honward : Onward plan txn.id (held.cursors.reader, x') :=
      ⟨[], (hread.trans hx) ▸ .nil, .nil, fun _ _ _ h => by cases h⟩
    refine Yields.bind (yields_readAhead entries hindex (hstation held rfl) honward) ?_ ?_
    · rintro progress x'' hstands
      refine ⟨hstands.inOrder, ?_⟩
      rintro scan ⟨⟩
      exact ⟨rfl, index, rfl, hstands⟩
    · rintro e x'' hstands
      exact ⟨hstands, fun _ h => by cases h⟩

variable (entries) in
/-- **A pull goes on in order.** -/
theorem stands_next (hindex : plan.target.secondaryIndex = .ok index) {progress : Progress Cursor}
    (h : Stands plan id index (progress, x)) : ∃ progress' x',
      quietly (Scan.next (watched entries)) (⟨plan, progress⟩, x) = (⟨plan, progress'⟩, x') ∧
        Stands plan id index (progress', x') := by
  cases progress with
  | closed => exact ⟨.closed, x, rfl, h⟩
  | running held row =>
    have hread := yields_readAhead entries hindex h.1 h.2
    unfold quietly Scan.next
    unfold Yields at hread
    dsimp only
    rcases hahead : Scan.readAhead (watched entries) plan held x with ⟨e | progress', x'⟩ <;> rw [hahead] at hread
    · exact ⟨.closed, x', rfl, hread⟩
    · exact ⟨progress', x', rfl, hread⟩

theorem inOrder_pulls (hindex : plan.target.secondaryIndex = .ok index) : ∀ (pulls : Nat) {progress : Progress Cursor}
    {x : Track}, Stands plan id index (progress, x) →
      InOrder plan id ((quietly (Scan.next (watched entries)))^[pulls] (⟨plan, progress⟩, x)).2.readings
  | 0, _, _, h => h.inOrder
  | pulls + 1, _, _, h => by
    obtain ⟨progress', x', hnext, hstands⟩ := stands_next entries hindex h
    rw [Function.iterate_succ_apply, hnext]
    exact inOrder_pulls hindex pulls hstands

/-- **Whatever others do before each call, a scan reads in the strict order of its direction.** -/
theorem inOrder_scan (txn : Transaction) (plan : Plan) (write : Bool) (pulls : Nat) (hx : x.readings = []) :
    InOrder plan txn.id (x.scan entries txn plan write pulls).readings := by
  obtain ⟨hinOrder, hopened⟩ := yields_open entries txn plan write hx
  unfold scan
  rcases hopen : Scan.open (watched entries) txn plan write x with ⟨e | ⟨plan', progress⟩, x'⟩ <;>
    rw [hopen] at hinOrder hopened
  · exact hinOrder
  · obtain ⟨rfl, index, hindex, hstands⟩ := hopened _ rfl
    exact inOrder_pulls hindex pulls hstands

end Track

namespace Database

/-- **Scans move onward.**  Whatever others call before each call of the engine, on the scan's transaction or elsewhere,
the entries that a scan reads are in the strict order of its direction, so none is read twice.  And wherever a cursor
rests, an advance leads to the nearest key strictly beyond its place in the index as it then is, or to none if there is
none, whether or not there is still an entry at the place. -/
theorem scans_move_onward (calls : List Call) :
    (∀ (turns : List (List Call)) (entries : Nat) (txn : Transaction) (plan : Plan) (write : Bool) (pulls : Nat),
      Track.InOrder plan txn.id (Track.scan entries txn plan write pulls ⟨run calls, turns, []⟩).readings) ∧
    ∀ (c : Cursor) (place : Key) (entries : Cursor.Entries) (direction : Direction), c.closed = false →
      c.RestsOver (run calls) place entries → ∃ next db',
        engine.advance direction (c, run calls) = (.ok (), ({ c with position := next }, db')) ∧
          Nearest direction place entries.keys next := by
  refine ⟨fun turns entries txn plan write pulls => Track.inOrder_scan txn plan write pulls rfl, ?_⟩
  intro c place entries direction hopen hrests
  obtain ⟨⟨c', db'⟩, hadvance, rfl⟩ := (Cursor.ends_advance_of_rests hopen hrests direction).apply
  refine ⟨entries.step place direction, db', hadvance, ?_⟩
  obtain ⟨-, t, hsees, hentries⟩ := hrests
  have hkept : (run calls).All Kept := all_run fun call _ => call.keepsTables_kept
  exact Cursor.nearest_step (hkept.sees hsees).2.2 hentries place direction

/-- A cursor on the addresses that rests where one of three people was before he was deleted. -/
def bereft : Cursor where
  id := 9
  transaction := 1
  schema := people
  index := some ⟨"mails", [⟨"mail", .varchar, 20, [], 1⟩], false, true⟩
  position := some [.text "bob", .int 2]

/-- What is left under the addresses. -/
def othersByMail : Cursor.Entries :=
  .secondary ⟨[([.text "ada", .int 3], [.int 3]), ([.text "eve", .int 1], [.int 1])]⟩

/-- From a place that is no entry any more an advance leads to the next one, and a step back to the one before. -/
theorem scans_move_onward_bereft : ∃ db db',
    engine.advance .asc (bereft, run (crowdCalls ++ [.delete ⟨1, .readCommitted⟩ people (person 2 "")])) =
        (.ok (), ({ bereft with position := some [.text "eve", .int 1] }, db)) ∧
      engine.advance .desc (bereft, run (crowdCalls ++ [.delete ⟨1, .readCommitted⟩ people (person 2 "")])) =
        (.ok (), ({ bereft with position := some [.text "ada", .int 3] }, db')) := by
  have hrests : bereft.RestsOver (run (crowdCalls ++ [.delete ⟨1, .readCommitted⟩ people (person 2 "")]))
      [.text "bob", .int 2] othersByMail := ⟨rfl, (Table.remove [.int 2] crowd).2, ⟨by cbv, by cbv⟩, by cbv⟩
  obtain ⟨-, hadvance⟩ := scans_move_onward (crowdCalls ++ [.delete ⟨1, .readCommitted⟩ people (person 2 "")])
  obtain ⟨next, db, hasc, hnext⟩ := hadvance bereft _ othersByMail .asc rfl hrests
  obtain ⟨last, db', hdesc, hlast⟩ := hadvance bereft _ othersByMail .desc rfl hrests
  have hafter : Nearest .asc [.text "bob", .int 2] othersByMail.keys (some [.text "eve", .int 1]) :=
    ⟨by decide, rfl, fun key hkey hbeyond => by fin_cases hkey <;> first | exact .inl rfl | cases hbeyond⟩
  have hbefore : Nearest .desc [.text "bob", .int 2] othersByMail.keys (some [.text "ada", .int 3]) :=
    ⟨by decide, rfl, fun key hkey hbeyond => by fin_cases hkey <;> first | exact .inl rfl | cases hbeyond⟩
  obtain rfl := hnext.unique hafter
  obtain rfl := hlast.unique hbefore
  exact ⟨db, db', hasc, hdesc⟩

end Database
end Memory
end RowStore

import RowStore.Proofs.AllTables
import RowStore.Proofs.CursorSteps
import RowStore.Proofs.SeekLaws
import RowStore.Proofs.TableInvariant

/-!
# The place of a cursor

A cursor remembers the key of the entry that it rests on.  A read that succeeds has read an entry there
(`yields_readRow`).  An advance goes to the nearest key beyond it in the index as it then is, whether or not the
remembered key is still there (`nearest_step`, `ends_advance_of_rests`).  No call takes a cursor to another index
(`Stationary`).
-/
namespace RowStore

open Attempt

variable {ε ε' σ ρ α β : Type}

/-! ## What a computation yields -/

/-- From a state a computation ends with a result and in a state that satisfy `Q`. -/
def Attempt.Yields (m : Attempt ε σ α) (s : σ) (Q : Except ε α → σ → Prop) : Prop := Q (m s).1 (m s).2

namespace Attempt.Yields

variable {m : Attempt ε σ α} {f : α → Attempt ε σ β} {s : σ} {M : Except ε α → σ → Prop} {Q : Except ε β → σ → Prop}

/-- **What follows starts where the first step ends**, if that answers. -/
theorem bind (hm : Yields m s M) (hf : ∀ a u, M (.ok a) u → Yields (f a) u Q)
    (hfail : ∀ e u, M (.error e) u → Q (.error e) u) : Yields (m >>= f) s Q := by
  unfold Yields at *
  rw [bind_apply]
  rcases hms : m s with ⟨e | a, u⟩ <;> rw [hms] at hm
  · exact hfail e u hm
  · exact hf a u hm

theorem ofExcept_bind {r : Except ε α} (hf : ∀ a, r = .ok a → Yields (f a) s Q) (hfail : ∀ e, Q (.error e) s) :
    Yields (Attempt.ofExcept r >>= f) s Q := by
  cases r with
  | error e => exact hfail e
  | ok a => exact hf a rfl

theorem state_bind {f : σ → Attempt ε σ β} (hf : Yields (f s) s Q) : Yields (state >>= f) s Q := hf

theorem modify_bind {g : σ → σ} {f : Unit → Attempt ε σ β} (hf : Yields (f ()) (g s) Q) :
    Yields (modify g >>= f) s Q := hf

theorem held_bind {x : ρ} {f : ρ → Attempt ε (ρ × σ) β} {s : σ} {Q : Except ε β → ρ × σ → Prop}
    (hf : Yields (f x) (x, s) Q) : Yields (held >>= f) (x, s) Q := hf

theorem below {x : ρ} (h : Yields m s M) : Yields (Attempt.below m) (x, s) fun r u => u.1 = x ∧ M r u.2 := ⟨rfl, h⟩

end Attempt.Yields

namespace Attempt.Keeps

variable {P : σ → Prop} {m : Attempt ε σ α} {f : α → Attempt ε σ β}

theorem bind (hm : Keeps P m) (hf : ∀ a, Keeps P (f a)) : Keeps P (m >>= f) := fun s hs =>
  Yields.bind (M := fun _ => P) (Q := fun _ => P) (hm s hs) hf fun _ _ h => h

theorem outcome (hm : Keeps P m) : Keeps P (Attempt.outcome m : Attempt ε' σ (Except ε α)) := hm

theorem ofExcept (r : Except ε α) : Keeps P (Attempt.ofExcept r) := fun _ hs => hs

theorem below (hm : Keeps P m) : Keeps (fun s : ρ × σ => P s.2) (Attempt.below m) := fun s hs => hm s.2 hs

theorem holding {take : Attempt ε σ ρ} {letGo : ρ → σ → σ} {body : Attempt ε (ρ × σ) α} (htake : Keeps P take)
    (hbody : Keeps (fun s => P s.2) body) (hletGo : ∀ x s, P s → P (letGo x s)) :
    Keeps P (Attempt.holding take letGo body) := by
  intro s hs
  have h := htake s hs
  unfold Attempt.holding
  rcases htook : take s with ⟨e | x, u⟩ <;> rw [htook] at h
  · exact h
  · exact hletGo _ _ (hbody (x, u) h)

end Attempt.Keeps

/-! ## The nearest key -/

/-- The nearest of some keys beyond a place, if there is one. -/
def Nearest (direction : Direction) (place : Key) (keys : List Key) : Option Key → Prop
  | some next => next ∈ keys ∧ OrderedMap.Beyond direction place next ∧
      ∀ key ∈ keys, OrderedMap.Beyond direction place key → key = next ∨ OrderedMap.Beyond direction next key
  | none => ∀ key ∈ keys, ¬OrderedMap.Beyond direction place key

theorem Nearest.unique {direction : Direction} {place : Key} {keys : List Key} :
    ∀ {a b : Option Key}, Nearest direction place keys a → Nearest direction place keys b → a = b
  | none, none, _, _ => rfl
  | none, some b, ha, hb => absurd hb.2.1 (ha b hb.1)
  | some a, none, ha, hb => absurd ha.2.1 (hb a ha.1)
  | some a, some b, ha, hb => by
    rcases ha.2.2 b hb.1 hb.2.1 with rfl | hab
    · rfl
    rcases hb.2.2 a ha.1 ha.2.1 with rfl | hba
    · rfl
    · exact absurd (hab.trans hba) (OrderedMap.not_beyond_self direction a)

namespace OrderedMap

open Std (TransCmp OrientedCmp)

variable {m : OrderedMap Key β} {place next : Key} {direction : Direction}

theorem Beyond.of_eq {a b c : Key} (heq : Key.order a b = .eq) (h : Beyond direction b c) : Beyond direction a c := by
  cases direction with
  | asc => exact TransCmp.lt_of_eq_of_lt heq h
  | desc => exact TransCmp.lt_of_lt_of_eq h (OrientedCmp.eq_symm heq)

theorem Beyond.of_eq_right {a b c : Key} (h : Beyond direction a b) (heq : Key.order b c = .eq) :
    Beyond direction a c := by
  cases direction with
  | asc => exact TransCmp.lt_of_lt_of_eq h heq
  | desc => exact TransCmp.lt_of_eq_of_lt (OrientedCmp.eq_symm heq) h

theorem beyond_step (h : m.step place direction = some next) : Beyond direction place next := by
  rw [step_eq] at h
  obtain ⟨e, he, rfl⟩ := Option.map_eq_some_iff.1 h
  exact (mem_ahead.1 (List.mem_of_mem_head? he)).2

/-- **A step goes to the nearest key**, whether or not there is an entry at the place. -/
theorem nearest_step (hm : m.Ascending) (place : Key) (direction : Direction) :
    Nearest direction place m.keys (m.step place direction) := by
  have hahead : ∀ key ∈ m.keys, Beyond direction place key → ∃ e ∈ m.ahead place direction, e.1 = key := by
    intro key hkey hbeyond
    obtain ⟨e, he, rfl⟩ := List.mem_map.1 hkey
    exact ⟨e, mem_ahead.2 ⟨he, hbeyond⟩, rfl⟩
  have hpairs := pairwise_ahead hm place direction
  rw [step_eq]
  cases hl : m.ahead place direction with
  | nil =>
    intro key hkey hbeyond
    obtain ⟨e, he, -⟩ := hahead key hkey hbeyond
    rw [hl] at he
    cases he
  | cons first rest =>
    rw [hl] at hahead hpairs
    obtain ⟨hmem, hbeyond⟩ := mem_ahead.1 (show first ∈ m.ahead place direction by rw [hl]; exact List.mem_cons_self)
    refine ⟨List.mem_map_of_mem hmem, hbeyond, ?_⟩
    intro key hkey hfurther
    obtain ⟨e, he, rfl⟩ := hahead key hkey hfurther
    rcases List.mem_cons.1 he with rfl | he
    · exact .inl rfl
    · exact .inr ((List.pairwise_cons.1 hpairs).1 e he)

end OrderedMap

namespace Memory

theorem Table.Consistent.ascending_index {t : Table} (h : t.Consistent) {name : String} {m : OrderedMap Key Key}
    (hget : t.indexes.get? name = some m) : m.Ascending := by
  obtain ⟨name', hmem, heq⟩ := OrderedMap.exists_mem_of_get? hget
  obtain rfl : name' = name := Std.LawfulEqOrd.eq_of_compare heq
  have hname : name' ∈ t.indexes.keys := List.mem_map_of_mem hmem
  rw [h.names] at hname
  obtain ⟨i, hi, rfl⟩ := List.mem_map.1 hname
  obtain ⟨m', hget', hascending, -⟩ := h.indexed i hi
  rw [hget] at hget'
  cases hget'
  exact hascending

namespace Cursor

variable {c c' : Cursor} {db db' : Database} {t : Table} {entries : Entries} {key place : Key} {direction : Direction}

namespace Entries

def keys : Entries → List Key
  | clustered rows => rows.keys
  | secondary entries => entries.keys

theorem beyond_step {next : Key} (h : entries.step place direction = some next) :
    OrderedMap.Beyond direction place next := by
  cases entries with
  | clustered rows => exact OrderedMap.beyond_step h
  | secondary entries => exact OrderedMap.beyond_step h

theorem exists_of_read? {access : Bool} {cells : List Cell} (h : entries.read? t access place = some cells) :
    ∃ key ∈ entries.keys, Key.order key place = .eq := by
  cases entries with
  | clustered rows =>
    obtain ⟨key, hmem, heq⟩ := OrderedMap.exists_mem_of_get? h
    exact ⟨key, List.mem_map_of_mem hmem, heq⟩
  | secondary entries =>
    obtain ⟨primaryKey, hget, -⟩ := Option.bind_eq_some_iff.1 h
    obtain ⟨key, hmem, heq⟩ := OrderedMap.exists_mem_of_get? hget
    exact ⟨key, List.mem_map_of_mem hmem, heq⟩

end Entries

theorem nearest_step {index : Option Index} (ht : t.Consistent) (hentries : entriesOf t index = .ok entries)
    (place : Key) (direction : Direction) : Nearest direction place entries.keys (entries.step place direction) := by
  unfold entriesOf at hentries
  cases index with
  | none =>
    cases hentries
    exact OrderedMap.nearest_step ht.ascending place direction
  | some index =>
    dsimp only at hentries
    cases hget : t.indexes.get? index.name with
    | none => simp [hget] at hentries
    | some m =>
      rw [hget] at hentries
      cases hentries
      exact OrderedMap.nearest_step (ht.ascending_index hget) place direction

/-! ## Calls that look at the entries -/

theorem yields_withEntries (look : Table → Entries → Except Error α) (c : Cursor) (db : Database) :
    Yields (withEntries look) (c, db) fun r s => s.1 = c ∧ ∀ a, r = .ok a → ∃ t entries,
      db.Sees c.transaction c.schema.name t ∧ entriesOf t c.index = .ok entries ∧ look t entries = .ok a := by
  refine ⟨rfl, fun a ha => ?_⟩
  have honTable : (Database.onTable c.transaction c.schema.name false (do
      let table ← Attempt.state
      let entries ← entriesOf table c.index
      look table entries : Action Table α) db).1 = .ok a := ha
  by_cases hactive : (db.workspace c.transaction).state = .active
  · rw [Database.onTable_of_active hactive] at honTable
    cases hcopy : db.copy? c.transaction c.schema.name with
    | none =>
      rw [hcopy] at honTable
      cases honTable
    | some copy =>
      rw [hcopy] at honTable
      have hsees : db.Sees c.transaction c.schema.name copy.table :=
        Database.sees_iff.2 ⟨hactive, by rw [hcopy]; rfl⟩
      have hlook : ((Attempt.ofExcept (entriesOf copy.table c.index) >>= fun entries =>
          Attempt.ofExcept (look copy.table entries) : Action Table α) copy.table).1 = .ok a := honTable
      cases hentries : entriesOf copy.table c.index with
      | error e =>
        rw [hentries] at hlook
        cases hlook
      | ok entries =>
        rw [hentries] at hlook
        exact ⟨copy.table, entries, hsees, hentries, hlook⟩
  · rw [Database.onTable_of_not_active hactive] at honTable
    cases honTable

theorem position_of_resting {otherwise : Status} (h : c.resting otherwise = .ok place) : c.position = some place := by
  unfold resting at h
  cases hposition : c.position with
  | none => simp [hposition] at h
  | some key =>
    rw [hposition] at h
    cases h
    rfl

/-- A cursor rests at a place and walks on some entries. -/
def RestsOver (c : Cursor) (db : Database) (place : Key) (entries : Entries) : Prop :=
  c.position = some place ∧ ∃ t, db.Sees c.transaction c.schema.name t ∧ entriesOf t c.index = .ok entries

theorem yields_readCells (tuple : Tuple) (c : Cursor) (db : Database) :
    Yields (do
      let cursor ← Attempt.held
      cursor.checkOpen
      if tuple.layout ≠ cursor.readLayout then Attempt.fail (.engine .dataMismatch)
      let key ← cursor.resting .recordNotFound
      withEntries fun table entries =>
        match entries.read? table cursor.clusterAccess key with
        | some cells => .ok cells
        | none => .error (.engine .recordNotFound) : Action (Cursor × Database) (List Cell)) (c, db) fun r s =>
      s.1 = c ∧ ∀ cells, r = .ok cells → ∃ entries place, c.RestsOver db place entries ∧
        ∃ key ∈ entries.keys, Key.order key place = .eq := by
  refine Yields.held_bind (Yields.ofExcept_bind (fun _ _ => ?_) fun _ => ⟨rfl, fun _ h => by cases h⟩)
  dsimp only
  split
  · exact ⟨rfl, fun _ h => by cases h⟩
  refine Yields.ofExcept_bind (fun place hplace => ?_) fun _ => ⟨rfl, fun _ h => by cases h⟩
  obtain ⟨hcursor, hlook⟩ := yields_withEntries (fun table entries =>
    match entries.read? table c.clusterAccess place with
    | some cells => Except.ok cells
    | none => .error (.engine .recordNotFound)) c db
  refine ⟨hcursor, fun cells hcells => ?_⟩
  obtain ⟨t, entries, hsees, hentries, hread⟩ := hlook cells hcells
  cases hcells' : entries.read? t c.clusterAccess place with
  | none => simp [hcells'] at hread
  | some cells' =>
    exact ⟨entries, place, ⟨position_of_resting hplace, t, hsees, hentries⟩, entries.exists_of_read? hcells'⟩

/-- **A read that succeeds has read an entry at the place of the cursor**, and does not move it. -/
theorem yields_readRow (tuple : Tuple) (c : Cursor) (db : Database) :
    Yields readRow (tuple, c, db) fun r s => s.2.1 = c ∧ (r = .ok () → ∃ entries place, c.RestsOver db place entries ∧
      ∃ key ∈ entries.keys, Key.order key place = .eq) := by
  refine Yields.held_bind (Yields.bind (yields_readCells tuple c db).below ?_ ?_)
  · rintro cells ⟨tuple', c', db'⟩ ⟨-, rfl, hread⟩
    have hstage := Tuple.setValues_apply cells tuple' (c', db')
    unfold Yields
    rw [hstage]
    split
    · exact ⟨rfl, fun h => by cases h⟩
    · exact ⟨rfl, fun _ => hread cells rfl⟩
  · rintro e ⟨tuple', c', db'⟩ ⟨-, rfl, -⟩
    exact ⟨rfl, fun h => by cases h⟩

/-- **An advance that succeeds has moved the cursor beyond its place.** -/
theorem yields_advance (direction : Direction) (c : Cursor) (db : Database) :
    Yields (advance direction) (c, db) fun r s => r = .ok () → ∃ entries place, c.RestsOver db place entries ∧
      s.1 = { c with position := entries.step place direction } := by
  refine Yields.held_bind (Yields.ofExcept_bind (fun _ _ => ?_) fun _ h => by cases h)
  refine Yields.ofExcept_bind (fun place hplace => Yields.modify_bind ?_) fun _ h => by cases h
  refine Yields.bind (yields_withEntries _ { c with position := none } db) ?_ fun _ _ _ h => by cases h
  rintro position ⟨c', db'⟩ ⟨rfl, hlook⟩ -
  obtain ⟨t, entries, hsees, hentries, hstep⟩ := hlook position rfl
  cases hstep
  exact ⟨entries, place, ⟨position_of_resting hplace, t, hsees, hentries⟩, rfl⟩

/-! ## Where a cursor belongs -/

/-- The transaction, the table and the index of a cursor. -/
def station (c : Cursor) : Nat × TableSchema × Option Index := (c.transaction, c.schema, c.index)

/-- A call leaves a cursor in its place. -/
def Stationary (call : Action (Cursor × Database) α) : Prop := ∀ at', Keeps (fun s => s.1.station = at') call

theorem stationary_update {f : Cursor → Cursor} (hf : ∀ c, (f c).station = c.station) : Stationary (update f) :=
  fun _ s hs => (hf s.1).trans hs

theorem stationary_log (operation : Operation) : Stationary (log operation) := fun _ _ hs => hs

theorem stationary_makeTuple (tuple : Tuple) : Stationary (makeTuple tuple) := fun _ _ hs => hs

theorem Stationary.bind {m : Action (Cursor × Database) α} {f : α → Action (Cursor × Database) β} (hm : Stationary m)
    (hf : ∀ a, Stationary (f a)) : Stationary (m >>= f) := fun at' => (hm at').bind fun a => hf a at'

/-- Most calls begin by asking whether the cursor is open. -/
theorem stationary_checked {f : Cursor → Action (Cursor × Database) α} (hf : ∀ c, Stationary (f c)) :
    Stationary (Attempt.held >>= fun c => Attempt.ofExcept c.checkOpen >>= fun _ => f c) :=
  Stationary.bind (fun _ _ hs => hs) fun c => Stationary.bind (fun _ _ hs => hs) fun _ => hf c

theorem stationary_setLockMode (mode : LockMode) : Stationary (setLockMode mode) := by
  refine stationary_checked fun c => ?_
  refine Stationary.bind (stationary_update fun _ => rfl) fun _ => ?_
  exact stationary_log _

theorem stationary_lock (mode : LockMode) : Stationary (lock mode) := by
  refine stationary_checked fun c => ?_
  dsimp only
  split
  · split
    · exact fun _ _ hs => hs
    · refine Stationary.bind (stationary_update fun _ => rfl) fun _ => ?_
      exact stationary_log _
  · exact stationary_log _

theorem stationary_setClusterAccess : Stationary setClusterAccess :=
  stationary_checked fun _ => stationary_update fun _ => rfl

theorem stationary_searchTuple (key : Key) : Stationary (searchTuple key) := by
  refine stationary_checked fun c => ?_
  dsimp only
  split
  · exact fun _ _ hs => hs
  · exact stationary_makeTuple _

theorem stationary_readTuple : Stationary readTuple := stationary_checked fun _ => stationary_makeTuple _

theorem stationary_search (tuple : Tuple) (mode : SearchMode) : Stationary (search tuple mode) := by
  refine stationary_checked fun c => ?_
  refine Stationary.bind (fun _ _ hs => hs) fun key => ?_
  have hlook : Stationary (withEntries fun _ entries => .ok (entries.seek key mode)) := fun _ s hs =>
    (congrArg station (yields_withEntries _ s.1 s.2).1).trans hs
  refine Stationary.bind hlook fun position => ?_
  refine Stationary.bind (stationary_update fun _ => rfl) fun _ => ?_
  refine Stationary.bind (stationary_log _) fun _ => ?_
  exact fun _ _ hs => hs

theorem yields_create (id : Nat) (schema : TableSchema) (index : Option Index) (db : Database) :
    Yields (create id schema index) db fun r _ => ∀ c, r = .ok c → c.station = (id, schema, index) := by
  refine Yields.bind (M := fun _ _ => True) True.intro (fun _ _ _ => ?_) fun _ _ _ _ h => by cases h
  intro c h
  cases h
  rfl

theorem yields_createOnIndex (id : Nat) (table : Cursor) (index : Index) (db : Database)
    (hindex : table.schema.secondary? index.name = some index) : Yields (createOnIndex id table index) db fun r _ =>
      ∀ c, r = .ok c → c.station = (id, table.schema, some index) := by
  refine Yields.ofExcept_bind (fun _ _ => ?_) fun _ _ h => by cases h
  rw [hindex]
  exact yields_create _ _ _ _

/-! ## Advances -/

theorem ends_look {c : Cursor} {db : Database} {t : Table} {entries : Entries}
    (look : Table → Entries → Except Error α) (hsees : db.Sees c.transaction c.schema.name t)
    (hentries : entriesOf t c.index = .ok entries) :
    Ends (withEntries look) (c, db) (look t entries) fun s => s.1 = c := by
  have hwork := Database.ends_onTable hsees false (do
    let table ← Attempt.state
    let entries ← entriesOf table c.index
    look table entries : Action Table α)
  have happly : (do
      let table ← Attempt.state
      let entries ← entriesOf table c.index
      look table entries : Action Table α) t = (look t entries, t) := by
    show (Attempt.ofExcept (entriesOf t c.index) >>= fun entries => Attempt.ofExcept (look t entries)) t = _
    rw [hentries]
    rfl
  rw [happly] at hwork
  exact Ends.bind_held (Ends.bind_held ((Ends.below hwork).mono fun s hs => hs.1))

theorem ends_advance_of_rests {c : Cursor} {db : Database} {place : Key} {entries : Entries}
    (hopen : c.closed = false) (h : c.RestsOver db place entries) (direction : Direction) :
    Ends (advance direction) (c, db) (.ok ()) fun s => s.1 = { c with position := entries.step place direction } := by
  obtain ⟨hposition, t, hsees, hentries⟩ := h
  refine Ends.bind_held (Ends.bind_ofExcept (checkOpen_of_open hopen) ?_)
  refine Ends.bind_ofExcept (resting_of_position hposition) ?_
  refine Ends.bind (Q := (· = ({ c with position := none }, db))) (Ends.modify rfl) fun s hs => ?_
  subst hs
  refine Ends.bind (ends_look (c := { c with position := none }) _ hsees hentries) fun s hs => ?_
  obtain ⟨c', db'⟩ := s
  obtain rfl : c' = { c with position := none } := hs
  exact Ends.modify rfl

end Cursor

end Memory
end RowStore

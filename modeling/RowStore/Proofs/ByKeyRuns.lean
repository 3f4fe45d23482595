import RowStore.Proofs.CursorSteps
import RowStore.Proofs.FiniteMap

/-!
# Loading and writing single rows

How the calls of `ByKey` end on the engine in memory, in a transaction that sees a table of stored rows.  The search comes
to one row at most, and that row is taken if it agrees with the key (`Table.found`); then it is used (`ends_find_some`),
else the confirmation that follows tells that this is not the row (`ends_find_none`).
-/
namespace RowStore
namespace Memory

open Attempt
open Cursor (At Held)

variable {α : Type} {c : Cursor} {db : Database} {t t' : Table} {key : Key} {cells stored : List Cell} {row : Row}

/-! ## Positioning -/

theorem at_letGoTuple (tuple : Tuple) {s : Cursor × Database} (h : At c t s) : At c t (engine.letGoTuple tuple s) := by
  unfold Engine.letGoTuple Tuple.letGo
  dsimp only
  split
  · exact h
  · exact ⟨h.1, h.2.ledger _⟩

theorem ends_disposeTuple {tuple : Tuple} (hlive : tuple.disposed = false) (h : db.Has c.transaction c.schema.name t) :
    Ends engine.disposeTuple (tuple, c, db) (.ok ()) fun s => At c t s.2 := by
  unfold Engine.disposeTuple
  refine Ends.of_apply (u := ({ tuple with cells := [], disposed := true }, c, engine.tupleReleased db)) ?_
    ⟨rfl, h.ledger _⟩
  rw [Tuple.dispose_apply, if_neg (by rw [hlive]; exact Bool.false_ne_true)]

/-- **Positioning rests the cursor on the entry that the search finds.** -/
theorem ends_position (key : Key) {entries : Cursor.Entries} (hopen : c.closed = false)
    (hkey : key.length ≤ c.keyColumns.length) (mode : SearchMode) (hentries : Cursor.entriesOf t c.index = .ok entries)
    (h : db.Has c.transaction c.schema.name t) :
    Ends (engine.position key mode) (c, db) (.ok (entries.seek key mode).isSome)
      (At (c.placed (entries.seek key mode)) t) := by
  refine Ends.holding (B := fun s => At (c.placed (entries.seek key mode)) t s.2)
    (Cursor.ends_searchTuple hopen hkey h) (fun s hs => ?_) fun s hs => at_letGoTuple s.1 hs
  obtain ⟨c', db'⟩ := s
  obtain ⟨rfl, h'⟩ := hs
  have hsearch := Cursor.ends_search hopen (show (c'.keyTuple key).disposed = false from rfl) mode hentries h'
  refine Ends.bind (Ends.outcome (Ends.bind_held (Ends.below hsearch))) fun s hs => ?_
  obtain ⟨tuple, c'', db''⟩ := s
  obtain ⟨rfl, rfl, h''⟩ := hs
  exact Ends.bind (ends_disposeTuple rfl h'') fun s hs => Ends.ofExcept hs

/-! ## Finding the row of a key -/

theorem entriesOf_clustered (hindex : c.index = none) : Cursor.entriesOf t c.index = .ok (.clustered t.rows) := by
  rw [hindex]
  rfl

theorem keyColumns_clustered (hindex : c.index = none) : c.keyColumns = c.schema.primary.columns := by
  unfold Cursor.keyColumns
  rw [hindex]

/-- The row that a search for a key comes to, if it agrees with the key. -/
def Table.found (t : Table) (schema : TableSchema) (key : Row) : Except Error (Option (List Cell)) := do
  let leading ← encodeLeading schema.primary.columns key
  return ((t.rows.seek leading .greaterOrEqual).bind t.rows.get?).filter fun stored =>
    Row.agreeOn schema.primary.columns key (schema.rowOf stored)

theorem Table.found_eq_error {schema : TableSchema} {e : Error} (h : t.found schema row = .error e) :
    encodeLeading schema.primary.columns row = .error e := by
  unfold Table.found at h
  cases hleading : encodeLeading schema.primary.columns row with
  | error e' =>
    rw [hleading] at h
    cases h
    rfl
  | ok leading =>
    rw [hleading] at h
    cases h

theorem Table.found_eq_ok {schema : TableSchema} {found : Option (List Cell)} (h : t.found schema row = .ok found) :
    ∃ leading, encodeLeading schema.primary.columns row = .ok leading ∧
      ((t.rows.seek leading .greaterOrEqual).bind t.rows.get?).filter
        (fun stored => Row.agreeOn schema.primary.columns row (schema.rowOf stored)) = found := by
  obtain ⟨leading, hleading, h⟩ := bind_ok_iff.1 h
  cases h
  exact ⟨leading, hleading, rfl⟩

/-- What is found is a stored row that agrees. -/
theorem Table.Populated.mem_of_found {schema : TableSchema} (ht : t.Populated schema)
    (h : t.found schema row = .ok (some stored)) :
    (project schema.primary.columns stored, stored) ∈ t.rows.entries ∧
      Row.agreeOn schema.primary.columns row (schema.rowOf stored) = true := by
  obtain ⟨leading, -, hfound⟩ := Table.found_eq_ok h
  obtain ⟨hseek, hagree⟩ := Option.filter_eq_some_iff.1 hfound
  obtain ⟨k, hk, hget⟩ := Option.bind_eq_some_iff.1 hseek
  obtain ⟨k', hstored, -⟩ := OrderedMap.exists_mem_of_get? hget
  exact ⟨ht.keyed hstored ▸ hstored, hagree⟩

theorem ends_readStored (hopen : c.closed = false) (hindex : c.index = none) (hposition : c.position = some key)
    (hget : t.rows.get? key = some stored) (h : db.Has c.transaction c.schema.name t) :
    Ends engine.readRow (c.freshTuple, c, db) (.ok ()) (Held { c.freshTuple with cells := stored } c t) :=
  Cursor.ends_readRow hopen rfl rfl hposition (entriesOf_clustered hindex) hget h

variable {use : Row → Action (Tuple × Cursor × Database) α}

/-- The cursor is put where the search for the leading cells of the key stops. -/
theorem ends_placeLeading (hopen : c.closed = false) (hindex : c.index = none) {leading : Key}
    (hleading : encodeLeading c.schema.primary.columns row = .ok leading) (h : db.Has c.transaction c.schema.name t) :
    Ends (engine.position leading .greaterOrEqual) (c, db) (.ok (t.rows.seek leading .greaterOrEqual).isSome)
      (At (c.placed (t.rows.seek leading .greaterOrEqual)) t) :=
  ends_position leading hopen (by rw [keyColumns_clustered hindex]; exact length_encodeLeading_le hleading)
    .greaterOrEqual (entriesOf_clustered hindex) h

/-- The search stops at some row, which is then read and confirmed. -/
theorem ends_find_at {r : Except Error (Option α)} {k leading : Key} (hopen : c.closed = false) (hindex : c.index = none)
    (hbasic : c.schema.IsBasic) (hschema : c.schema.WellFormed)
    (hleading : encodeLeading c.schema.primary.columns row = .ok leading) (ht : t.Populated c.schema)
    (hstored : (k, stored) ∈ t.rows.entries) (hseek : t.rows.seek leading .greaterOrEqual = some k)
    (hconfirm : ∀ db', db'.Has c.transaction c.schema.name t →
      Ends (if Row.agreeOn c.schema.primary.columns row (c.schema.rowOf stored) then
          (do return some (← use (c.schema.rowOf stored)))
        else (do
          engine.disposeTuple
          return none))
        ({ c.freshTuple with cells := stored }, c.placed (some k), db') r fun s => At (c.placed (some k)) t' s.2)
    (h : db.Has c.transaction c.schema.name t) :
    Ends (ByKey.find engine c.schema row use) (c, db) r (At (c.placed (some k)) t') := by
  refine Ends.bind_ofExcept hleading ?_
  have hposition := ends_placeLeading hopen hindex hleading h
  rw [hseek] at hposition
  refine Ends.bind hposition fun s hs => ?_
  obtain ⟨c', db'⟩ := s
  obtain ⟨rfl, h'⟩ := hs
  refine Ends.bind_state ?_
  have hnext : engine.hasNext (c.placed (some k), db') = true := by
    show (!c.closed && true) = true
    rw [hopen]
    rfl
  rw [if_neg (by rw [hnext]; simp)]
  refine Ends.holding (B := fun s => At (c.placed (some k)) t' s.2) (Cursor.ends_readTuple hopen h') (fun s hs => ?_)
    fun s hs => at_letGoTuple s.1 hs
  obtain ⟨c', db''⟩ := s
  obtain ⟨rfl, h''⟩ := hs
  have hget : t.rows.get? k = some stored := OrderedMap.get?_of_mem ht.ascending hstored Std.ReflCmp.compare_self
  refine Ends.bind (ends_readStored hopen hindex rfl hget h'') fun s hs => ?_
  obtain ⟨tuple, c', db''⟩ := s
  obtain ⟨rfl, rfl, h''⟩ := hs
  refine Ends.bind_held (Ends.bind_ofExcept (decodeRow_of_stores hbasic hschema rfl rfl (ht.stores _ hstored)) ?_)
  exact hconfirm db'' h''

/-- **A row that is found is used**, and what is done with it is the result. -/
theorem ends_find_some (use : Row → Action (Tuple × Cursor × Database) α) (r : Except Error α) (t' : Table)
    (hopen : c.closed = false) (hindex : c.index = none) (hbasic : c.schema.IsBasic) (hschema : c.schema.WellFormed)
    (ht : t.Populated c.schema) (hfound : t.found c.schema row = .ok (some stored))
    (huse : ∀ db', db'.Has c.transaction c.schema.name t →
      Ends (use (c.schema.rowOf stored)) ({ c.freshTuple with cells := stored },
        c.placed (some (project c.schema.primary.columns stored)), db') r
        fun s => At (c.placed (some (project c.schema.primary.columns stored))) t' s.2)
    (h : db.Has c.transaction c.schema.name t) :
    Ends (ByKey.find engine c.schema row use) (c, db) (r.map some)
      (At (c.placed (some (project c.schema.primary.columns stored))) t') := by
  obtain ⟨leading, hleading, hfiltered⟩ := Table.found_eq_ok hfound
  obtain ⟨hstored, hagree⟩ := ht.mem_of_found hfound
  obtain ⟨k, hseek, hget⟩ := Option.bind_eq_some_iff.1 (Option.filter_eq_some_iff.1 hfiltered).1
  obtain ⟨_, hk⟩ := OrderedMap.exists_of_seek hseek
  rw [OrderedMap.get?_of_mem ht.ascending hk Std.ReflCmp.compare_self] at hget
  cases hget
  have hkey : k = project c.schema.primary.columns stored := ht.keyed hk
  subst hkey
  refine ends_find_at hopen hindex hbasic hschema hleading ht hstored hseek (fun db' h' => ?_) h
  rw [if_pos hagree]
  cases r with
  | error e => exact Ends.bind_error (huse db' h')
  | ok a => exact Ends.bind (huse db' h') fun s hs => Ends.pure hs

/-- **Where nothing is found, nothing is answered**, whatever the search comes near to. -/
theorem ends_find_none (use : Row → Action (Tuple × Cursor × Database) α) (hopen : c.closed = false)
    (hindex : c.index = none) (hbasic : c.schema.IsBasic) (hschema : c.schema.WellFormed) (ht : t.Populated c.schema)
    (hfound : t.found c.schema row = .ok none) (h : db.Has c.transaction c.schema.name t) :
    ∃ position, Ends (ByKey.find engine c.schema row use) (c, db) (.ok none) (At (c.placed position) t) := by
  obtain ⟨leading, hleading, hfiltered⟩ := Table.found_eq_ok hfound
  cases hseek : t.rows.seek leading .greaterOrEqual with
  | none =>
    refine ⟨none, Ends.bind_ofExcept hleading ?_⟩
    have hposition := ends_placeLeading hopen hindex hleading h
    rw [hseek] at hposition
    refine Ends.bind hposition fun s hs => Ends.bind_state ?_
    rw [if_pos (by rfl)]
    exact Ends.pure hs
  | some k =>
    obtain ⟨stored, hstored⟩ := OrderedMap.exists_of_seek hseek
    refine ⟨some k, ends_find_at hopen hindex hbasic hschema hleading ht hstored hseek (fun db' h' => ?_) h⟩
    have hagree : ¬Row.agreeOn c.schema.primary.columns row (c.schema.rowOf stored) = true := by
      intro hagree
      rw [hseek, Option.bind_some, OrderedMap.get?_of_mem ht.ascending hstored Std.ReflCmp.compare_self,
        Option.filter_some, if_pos hagree] at hfiltered
      cases hfiltered
    rw [if_neg hagree]
    exact Ends.bind (ends_disposeTuple rfl h') fun s hs => Ends.pure hs

/-- A key that cannot be encoded is not looked for. -/
theorem ends_find_error (use : Row → Action (Tuple × Cursor × Database) α) {e : Error}
    (hfound : t.found c.schema row = .error e) (h : db.Has c.transaction c.schema.name t) :
    Ends (ByKey.find engine c.schema row use) (c, db) (.error e) (At c t) :=
  Ends.bind_error (Ends.of_apply (u := (c, db)) (congrArg (·, (c, db)) (Table.found_eq_error hfound)) ⟨rfl, h⟩)

/-! ## Opening and closing -/

/-- A cursor on a table as it is before it has been positioned. -/
def Cursor.fresh (n : Nat) (txn : Transaction) (schema : TableSchema) (write : Bool) : Cursor where
  id := n
  transaction := txn.id
  schema := schema
  index := none
  lockMode := if write then .intentionExclusive else .none
  exclusive := write

variable {schema : TableSchema} {txn : Transaction}

/-- **What is done with a cursor of one's own is the result**; the cursor is closed on the way out. -/
theorem ends_withCursor {write : Bool} {body : Action (Cursor × Database) α} {r : Except Error α}
    (hbody : ∀ n db', db'.Has txn.id schema.name t → ∃ position,
      Ends body (Cursor.fresh n txn schema write, db') r
        (At ((Cursor.fresh n txn schema write).placed position) t'))
    (h : db.Sees txn.id schema.name t) :
    Ends (ByKey.withCursor engine txn schema write body) db r fun db' => db'.Has txn.id schema.name t' := by
  obtain ⟨n, hcreate⟩ := Cursor.ends_create none h
  refine Ends.holding (B := fun s => s.1.transaction = txn.id ∧ s.1.schema = schema ∧ s.2.Has txn.id schema.name t')
    hcreate (fun db' h' => ?_) fun s hs => ?_
  · obtain ⟨position, hbody⟩ : ∃ position, Ends (do
          if write then engine.lockForWrite
          body) ({ id := n, transaction := txn.id, schema, index := none }, db') r
        (At ((Cursor.fresh n txn schema write).placed position) t') := by
      cases write with
      | false => exact hbody n db' h'
      | true =>
        obtain ⟨s, hlocked, hs⟩ := (Cursor.ends_lockForWrite (t := t)
          (c := { id := n, transaction := txn.id, schema, index := none }) rfl h').apply
        obtain ⟨c, db''⟩ := s
        obtain ⟨rfl, h''⟩ := hs
        obtain ⟨position, hbody⟩ := hbody n db'' h''
        exact ⟨position, Ends.bind (Ends.of_apply hlocked (Q := (· = _)) rfl) fun s hs => hs ▸ hbody⟩
    refine Ends.bind (Ends.outcome hbody) fun s hs => ?_
    obtain ⟨c, db''⟩ := s
    obtain ⟨rfl, h''⟩ := hs
    refine Ends.bind (Ends.outcome (Cursor.ends_close rfl h'')) fun s hs => ?_
    obtain ⟨c, db''⟩ := s
    obtain ⟨rfl, h''⟩ := hs
    cases r with
    | error e => exact Ends.bind_error (Ends.ofExcept ⟨rfl, rfl, h''⟩)
    | ok a => exact ⟨rfl, rfl, rfl, h''⟩
  · obtain ⟨c, db'⟩ := s
    obtain ⟨htxn, rfl, h'⟩ := hs
    rw [← htxn] at h' ⊢
    exact Cursor.has_letGo h'

theorem ends_finish {tuple : Tuple} (hlive : tuple.disposed = false) (h : db.Has c.transaction c.schema.name t) :
    Ends (ByKey.finish engine) (tuple, c, db) (.ok ()) fun s => At c t s.2 := by
  refine Ends.bind (a := ()) (Q := (· = ({ tuple with cells := [] }, c, db))) (Ends.of_apply ?_ rfl) fun s hs => ?_
  · unfold Tuple.clear
    rw [Tuple.setValues_apply, if_neg (by rw [hlive]; exact Bool.false_ne_true)]
  · subst hs
    exact ends_disposeTuple hlive h

theorem ends_finished {m : Action (Tuple × Cursor × Database) Unit} {tuple tuple' : Tuple} {r : Except Error Unit}
    (hlive : tuple'.disposed = false) (hm : Ends m (tuple, c, db) r (Held tuple' c t')) :
    Ends (do m; ByKey.finish engine) (tuple, c, db) r fun s => At c t' s.2 := by
  cases r with
  | error e => exact Ends.bind_error (hm.mono fun s hs => hs.2)
  | ok a =>
    refine Ends.bind hm fun s hs => ?_
    obtain ⟨tuple'', c', db'⟩ := s
    obtain ⟨rfl, rfl, h'⟩ := hs
    exact ends_finish hlive h'

theorem ends_insertPayload (hopen : c.closed = false) (hindex : c.index = none) (hlock : c.exclusive = true)
    (payload : List Cell) (h : db.Has c.transaction c.schema.name t) :
    Ends (ByKey.insertPayload engine payload) (c, db) (Table.insert payload t).1 (At c (Table.insert payload t).2) := by
  refine Ends.holding (B := fun s => At c (Table.insert payload t).2 s.2) (Cursor.ends_readTuple hopen h)
    (fun s hs => ?_) fun s hs => at_letGoTuple s.1 hs
  obtain ⟨c', db'⟩ := s
  obtain ⟨rfl, h'⟩ := hs
  exact ends_finished rfl (Cursor.ends_insertRow payload hopen hindex hlock rfl h')

end Memory
end RowStore

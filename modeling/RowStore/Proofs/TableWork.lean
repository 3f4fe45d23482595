import RowStore.Proofs.ByKeyRuns

/-!
# A request is work on a table

To its transaction each call of `ByKey` is one piece of work on the table that is seen: find the row of a key, and at most
one write (`Table.Work`).  Cursor, tuples and locks leave no trace in it.  The call answers what the work answers and leaves
the table as the work leaves it (`ends_load` to `ends_delete`), also where the key cannot be encoded, where the row is
refused, and where the search comes to another row than the one that is wanted.
-/
namespace RowStore
namespace Memory

open Attempt
open Cursor (At)

/-! ## The work -/

namespace Table.Work

variable (schema : TableSchema)

def find (key : Row) : Action Table (Option (List Cell)) := do
  let t ← Attempt.state
  t.found schema key

def load (key : Row) : Action Table (Option Row) := do
  return (← find schema key).map schema.rowOf

def insert (row : Row) : Action Table Unit := do
  let cells ← schema.encodeRow row
  Table.insert cells

/-- The row is encoded only if there is one to replace. -/
def update (row : Row) : Action Table Bool := do
  match ← find schema row with
  | none => return false
  | some old =>
    let cells ← schema.encodeRow row
    Table.replace (project schema.primary.columns old) cells
    return true

/-- The row is encoded first, whether or not there is one to replace. -/
def insertOrUpdate (row : Row) : Action Table Bool := do
  let cells ← schema.encodeRow row
  match ← find schema row with
  | none =>
    Table.insert cells
    return false
  | some old =>
    Table.replace (project schema.primary.columns old) cells
    return true

def delete (key : Row) : Action Table Bool := do
  match ← find schema key with
  | none => return false
  | some old =>
    let _ ← Table.remove (project schema.primary.columns old)
    return true

end Table.Work

/-- A request as work on a table. -/
def Request.work (schema : TableSchema) : Request → Action Table Reply
  | load key => Reply.loaded <$> Table.Work.load schema key
  | insert row => (fun _ => Reply.done) <$> Table.Work.insert schema row
  | update row => Reply.found <$> Table.Work.update schema row
  | insertOrUpdate row => Reply.found <$> Table.Work.insertOrUpdate schema row
  | delete key => Reply.found <$> Table.Work.delete schema key

/-! ## The work, as equations -/

namespace Table.Work

variable {schema : TableSchema} {α : Type}

theorem find_bind_apply (key : Row) (f : Option (List Cell) → Action Table α) (t : Table) : (find schema key >>= f) t =
    match t.found schema key with
    | .error e => (.error e, t)
    | .ok found => f found t := by
  show (Attempt.ofExcept (t.found schema key) >>= f) t = _
  rw [bind_apply]
  cases t.found schema key <;> rfl

theorem encode_bind_apply (row : Row) (f : List Cell → Action Table α) (t : Table) :
    (Attempt.ofExcept (schema.encodeRow row) >>= f) t =
      match schema.encodeRow row with
      | .error e => (.error e, t)
      | .ok cells => f cells t := by
  rw [bind_apply]
  cases schema.encodeRow row <;> rfl

theorem load_apply (key : Row) (t : Table) :
    load schema key t = ((t.found schema key).map (Option.map schema.rowOf), t) := by
  refine (find_bind_apply key _ t).trans ?_
  cases t.found schema key <;> rfl

theorem insert_apply (row : Row) (t : Table) : insert schema row t =
    match schema.encodeRow row with
    | .error e => (.error e, t)
    | .ok cells => Table.insert cells t := encode_bind_apply row _ t

theorem update_apply (row : Row) (t : Table) : update schema row t =
    match t.found schema row with
    | .error e => (.error e, t)
    | .ok none => (.ok false, t)
    | .ok (some old) =>
      match schema.encodeRow row with
      | .error e => (.error e, t)
      | .ok cells => ((fun _ => true) <$> Table.replace (project schema.primary.columns old) cells) t := by
  refine (find_bind_apply row _ t).trans ?_
  rcases t.found schema row with _ | _ | old
  · rfl
  · rfl
  · exact encode_bind_apply row _ t

theorem insertOrUpdate_apply (row : Row) (t : Table) : insertOrUpdate schema row t =
    match schema.encodeRow row with
    | .error e => (.error e, t)
    | .ok cells =>
      match t.found schema row with
      | .error e => (.error e, t)
      | .ok none => ((fun _ => false) <$> Table.insert cells) t
      | .ok (some old) => ((fun _ => true) <$> Table.replace (project schema.primary.columns old) cells) t := by
  refine (encode_bind_apply row _ t).trans ?_
  rcases schema.encodeRow row with _ | cells
  · rfl
  · refine (find_bind_apply row _ t).trans ?_
    rcases t.found schema row with _ | _ | old <;> rfl

theorem delete_apply (key : Row) (t : Table) : delete schema key t =
    match t.found schema key with
    | .error e => (.error e, t)
    | .ok none => (.ok false, t)
    | .ok (some old) => ((fun _ => true) <$> Table.remove (project schema.primary.columns old)) t := by
  refine (find_bind_apply key _ t).trans ?_
  rcases t.found schema key with _ | _ | old <;> rfl

/-! ## What the work leaves -/

section
variable (hschema : schema.WellFormed) (hbasic : schema.IsBasic) {t : Table} (ht : t.Populated schema) (row : Row)
include hschema hbasic ht

theorem populated_insert : (insert schema row t).2.Populated schema := by
  rw [insert_apply]
  cases hrow : schema.encodeRow row with
  | error e => exact ht
  | ok cells => exact ht.insert hschema (stores_of_encodeRow hbasic hrow)

theorem populated_update : (update schema row t).2.Populated schema := by
  rw [update_apply]
  rcases t.found schema row with _ | _ | old
  · exact ht
  · exact ht
  · cases hrow : schema.encodeRow row with
    | error e => exact ht
    | ok cells =>
      dsimp only
      rw [map_apply]
      exact ht.replace hschema (stores_of_encodeRow hbasic hrow) _

theorem populated_insertOrUpdate : (insertOrUpdate schema row t).2.Populated schema := by
  rw [insertOrUpdate_apply]
  cases hrow : schema.encodeRow row with
  | error e => exact ht
  | ok cells =>
    rcases t.found schema row with _ | _ | old
    · exact ht
    · dsimp only
      rw [map_apply]
      exact ht.insert hschema (stores_of_encodeRow hbasic hrow)
    · dsimp only
      rw [map_apply]
      exact ht.replace hschema (stores_of_encodeRow hbasic hrow) _

omit hbasic in
theorem populated_delete : (delete schema row t).2.Populated schema := by
  rw [delete_apply]
  rcases t.found schema row with _ | _ | old
  · exact ht
  · exact ht
  · dsimp only
    rw [map_apply]
    exact ht.remove hschema _

end

end Table.Work

/-- **A request leaves a table of stored rows one of stored rows.** -/
theorem Request.populated_work {schema : TableSchema} (hschema : schema.WellFormed) (hbasic : schema.IsBasic) {t : Table}
    (ht : t.Populated schema) (request : Request) : (request.work schema t).2.Populated schema := by
  unfold Request.work
  cases request with
  | load key =>
    dsimp only
    rw [map_apply, Table.Work.load_apply]
    exact ht
  | insert row =>
    dsimp only
    rw [map_apply]
    exact Table.Work.populated_insert hschema hbasic ht row
  | update row =>
    dsimp only
    rw [map_apply]
    exact Table.Work.populated_update hschema hbasic ht row
  | insertOrUpdate row =>
    dsimp only
    rw [map_apply]
    exact Table.Work.populated_insertOrUpdate hschema hbasic ht row
  | delete key =>
    dsimp only
    rw [map_apply]
    exact Table.Work.populated_delete hschema ht key

/-! ## The calls -/

variable {schema : TableSchema} {txn : Transaction} {db : Database} {t : Table} {row : Row}

/-- A call is done as work on the table that the transaction sees. -/
abbrev Does {α : Type} (schema : TableSchema) (txn : Transaction) (db : Database) (t : Table) (call : Action Database α)
    (work : Action Table α) : Prop :=
  Ends call db (work t).1 fun db' => db'.Has txn.id schema.name (work t).2

theorem Does.map {α β : Type} {call : Action Database α} {work : Action Table α} (h : Does schema txn db t call work)
    (f : α → β) : Does schema txn db t (f <$> call) (f <$> work) := by
  unfold Does
  rw [map_apply]
  exact Ends.map h

/-- A call that tells whether a row was found tells so of the row that was used. -/
theorem ends_isSome {σ α : Type} {m : Action σ (Option α)} {s : σ} {r : Except Error α} {Q : σ → Prop}
    (h : Ends m s (r.map some) Q) : Ends (Option.isSome <$> m) s (r.map fun _ => true) Q := by
  have hmap : r.map (fun _ => true) = (r.map some).map Option.isSome := by cases r <;> rfl
  rw [hmap]
  exact h.map

section
variable (hschema : schema.WellFormed) (hbasic : schema.IsBasic) (ht : t.Populated schema)
  (h : db.Sees txn.id schema.name t)
include hschema hbasic ht h

theorem does_load (key : Row) : Does schema txn db t (ByKey.load engine txn schema key) (Table.Work.load schema key) := by
  unfold Does
  rw [Table.Work.load_apply]
  refine ends_withCursor (fun n db' h' => ?_) h
  cases hfound : t.found schema key with
  | error e => exact ⟨none, ends_find_error (c := Cursor.fresh n txn schema false) _ hfound h'⟩
  | ok found =>
    cases found with
    | none => exact ends_find_none _ (c := Cursor.fresh n txn schema false) rfl rfl hbasic hschema ht hfound h'
    | some stored =>
      refine ⟨_, ends_find_some (c := Cursor.fresh n txn schema false) _ (.ok (schema.rowOf stored)) t rfl rfl hbasic
        hschema ht hfound (fun db'' h'' => ?_) h'⟩
      exact Ends.bind (ends_finish rfl h'') fun s hs => Ends.pure hs

omit hschema hbasic ht in
theorem does_insert (row : Row) :
    Does schema txn db t (ByKey.insert engine txn schema row) (Table.Work.insert schema row) := by
  unfold Does
  rw [Table.Work.insert_apply]
  refine ends_withCursor (fun n db' h' => ⟨none, ?_⟩) h
  cases hrow : schema.encodeRow row with
  | error e => exact Ends.bind_error (Ends.ofExcept ⟨rfl, h'⟩)
  | ok cells => exact Ends.bind_ofExcept rfl (ends_insertPayload (c := Cursor.fresh n txn schema true) rfl rfl rfl cells h')

omit h in
/-- A row that is found is replaced. -/
theorem ends_findReplace {old cells : List Cell} (hfound : t.found schema row = .ok (some old)) (n : Nat)
    (h : db.Has txn.id schema.name t) :
    Ends (ByKey.find engine schema row fun _ => do
        engine.updateRow cells
        ByKey.finish engine) (Cursor.fresh n txn schema true, db)
      ((Table.replace (project schema.primary.columns old) cells t).1.map some)
      (At ((Cursor.fresh n txn schema true).placed (some (project schema.primary.columns old)))
        (Table.replace (project schema.primary.columns old) cells t).2) := by
  refine ends_find_some (c := Cursor.fresh n txn schema true) _ _ _ rfl rfl hbasic hschema ht hfound
    (fun db' h' => ?_) h
  exact ends_finished rfl (Cursor.ends_updateRow
    (c := (Cursor.fresh n txn schema true).placed (some (project schema.primary.columns old))) cells rfl rfl rfl rfl
    (show ({ (Cursor.fresh n txn schema true).freshTuple with cells := old } : Tuple).disposed = false from rfl) h')

theorem does_update (row : Row) :
    Does schema txn db t (ByKey.update engine txn schema row) (Table.Work.update schema row) := by
  unfold Does
  rw [Table.Work.update_apply]
  refine ends_withCursor (fun n db' h' => ?_) h
  cases hfound : t.found schema row with
  | error e => exact ⟨none, Ends.bind_error (ends_find_error (c := Cursor.fresh n txn schema true) _ hfound h')⟩
  | ok found =>
    cases found with
    | none =>
      obtain ⟨position, hfind⟩ := ends_find_none _ (c := Cursor.fresh n txn schema true) rfl rfl hbasic hschema ht hfound h'
      exact ⟨position, Ends.bind hfind fun s hs => Ends.pure hs⟩
    | some old =>
      refine ⟨some (project schema.primary.columns old), ?_⟩
      cases hrow : schema.encodeRow row with
      | error e =>
        refine Ends.bind_error (ends_find_some (c := Cursor.fresh n txn schema true) _ (.error e) t rfl rfl hbasic hschema
          ht hfound (fun db'' h'' => ?_) h')
        exact Ends.bind_error (Ends.ofExcept ⟨rfl, h''⟩)
      | ok cells =>
        dsimp only
        rw [map_apply]
        exact ends_isSome (ends_findReplace hschema hbasic ht hfound n h')

theorem does_insertOrUpdate (row : Row) :
    Does schema txn db t (ByKey.insertOrUpdate engine txn schema row) (Table.Work.insertOrUpdate schema row) := by
  unfold Does
  rw [Table.Work.insertOrUpdate_apply]
  refine ends_withCursor (fun n db' h' => ?_) h
  cases hrow : schema.encodeRow row with
  | error e => exact ⟨none, Ends.bind_error (Ends.ofExcept ⟨rfl, h'⟩)⟩
  | ok cells =>
    cases hfound : t.found schema row with
    | error e =>
      exact ⟨none, Ends.bind_ofExcept rfl
        (Ends.bind_error (ends_find_error (c := Cursor.fresh n txn schema true) _ hfound h'))⟩
    | ok found =>
      cases found with
      | none =>
        obtain ⟨position, hfind⟩ := ends_find_none (c := Cursor.fresh n txn schema true) (fun _ => do
          engine.updateRow cells
          ByKey.finish engine) rfl rfl hbasic hschema ht hfound h'
        refine ⟨position, Ends.bind_ofExcept rfl (Ends.bind hfind fun s hs => ?_)⟩
        obtain ⟨c, db''⟩ := s
        obtain ⟨rfl, h''⟩ := hs
        have hpayload := ends_insertPayload (c := (Cursor.fresh n txn schema true).placed position) rfl rfl rfl cells h''
        dsimp only
        rw [map_apply, if_neg (by simp)]
        cases hr : (Table.insert cells t).1 with
        | error e =>
          rw [hr] at hpayload
          exact Ends.bind_error hpayload
        | ok a =>
          rw [hr] at hpayload
          exact Ends.bind hpayload fun s hs => Ends.pure hs
      | some old =>
        refine ⟨some (project schema.primary.columns old), Ends.bind_ofExcept rfl ?_⟩
        have hfind : Ends _ _ ((Table.replace _ cells t).1.map some) _ := ends_findReplace hschema hbasic ht hfound n h'
        dsimp only
        rw [map_apply]
        cases hr : (Table.replace (project schema.primary.columns old) cells t).1 with
        | error e =>
          rw [hr] at hfind
          exact Ends.bind_error hfind
        | ok a =>
          rw [hr] at hfind
          refine Ends.bind hfind fun s hs => ?_
          rw [if_pos (by rfl)]
          exact Ends.pure hs

theorem does_delete (key : Row) :
    Does schema txn db t (ByKey.delete engine txn schema key) (Table.Work.delete schema key) := by
  unfold Does
  rw [Table.Work.delete_apply]
  refine ends_withCursor (fun n db' h' => ?_) h
  cases hfound : t.found schema key with
  | error e => exact ⟨none, Ends.bind_error (ends_find_error (c := Cursor.fresh n txn schema true) _ hfound h')⟩
  | ok found =>
    cases found with
    | none =>
      obtain ⟨position, hfind⟩ := ends_find_none _ (c := Cursor.fresh n txn schema true) rfl rfl hbasic hschema ht hfound h'
      exact ⟨position, Ends.bind hfind fun s hs => Ends.pure hs⟩
    | some old =>
      obtain ⟨hstored, -⟩ := ht.mem_of_found hfound
      have hremove : Table.remove (project schema.primary.columns old) t =
          (.ok old, t.withoutRow (project schema.primary.columns old) old) := by
        rw [Table.remove_apply, OrderedMap.get?_of_mem ht.ascending hstored Std.ReflCmp.compare_self]
      refine ⟨some (project schema.primary.columns old), ?_⟩
      dsimp only
      rw [map_apply, hremove]
      refine ends_isSome (ends_find_some (c := Cursor.fresh n txn schema true) _ (.ok ())
        (t.withoutRow (project schema.primary.columns old) old) rfl rfl hbasic hschema ht hfound (fun db'' h'' => ?_) h')
      have hdelete := Cursor.ends_deleteRow
        (c := (Cursor.fresh n txn schema true).placed (some (project schema.primary.columns old))) rfl rfl rfl rfl h''
      rw [hremove] at hdelete
      refine Ends.bind (Ends.below hdelete) fun s hs => ?_
      obtain ⟨tuple, c, db3⟩ := s
      obtain ⟨rfl, rfl, h3⟩ := hs
      exact ends_finish rfl h3

/-- **A request is done as work on the table that the transaction sees.** -/
theorem does_request (request : Request) :
    Does schema txn db t (request.perform engine txn schema) (request.work schema) := by
  cases request with
  | load key => exact (does_load hschema hbasic ht h key).map Reply.loaded
  | insert row => exact (does_insert h row).map fun _ => Reply.done
  | update row => exact (does_update hschema hbasic ht h row).map Reply.found
  | insertOrUpdate row => exact (does_insertOrUpdate hschema hbasic ht h row).map Reply.found
  | delete key => exact (does_delete hschema hbasic ht h key).map Reply.found

end

end Memory
end RowStore

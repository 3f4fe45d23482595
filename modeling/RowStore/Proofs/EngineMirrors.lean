import RowStore.ByKey
import RowStore.Proofs.Mirrors

/-!
# Rows by primary key, side by side

The calls on rows are made of an engine's calls and of nothing else.  So if every call of an engine on a table mirrors
itself along a relation of states and one of cursors (`Engine.Mirrors`), then the calls on rows of the table do, too.
-/
namespace RowStore

open Attempt

/-- The writes that are meant, by what they write. -/
structure Writes where
  insert : List Cell → Prop := fun _ => True
  replace : List Cell → Prop := fun _ => True
  remove : Prop := True

variable {σ τ κ α : Type} {E : Engine σ τ κ} {S : σ → σ → Prop} {C : κ → κ → Prop} {W : Writes} {txn txn' : τ}
  {schema : TableSchema}

/-- The calls of an engine on a table, for two transactions: from related states and cursors they end alike in related
states and cursors.  Of the writes only those that are meant need do so. -/
structure Engine.Mirrors (E : Engine σ τ κ) (S : σ → σ → Prop) (C : κ → κ → Prop) (W : Writes) (txn txn' : τ)
    (schema : TableSchema) : Prop where
  openTable : Attempt.Mirrors S C (E.openTable txn schema) (E.openTable txn' schema)
  setLockMode : ∀ mode, Attempt.Mirrors (Both C S) (· = ·) (E.setLockMode mode) (E.setLockMode mode)
  lock : ∀ mode, Attempt.Mirrors (Both C S) (· = ·) (E.lock mode) (E.lock mode)
  searchTuple : ∀ key, Attempt.Mirrors (Both C S) (· = ·) (E.searchTuple key) (E.searchTuple key)
  readTuple : Attempt.Mirrors (Both C S) (· = ·) E.readTuple E.readTuple
  search : ∀ tuple mode, Attempt.Mirrors (Both C S) (· = ·) (E.search tuple mode) (E.search tuple mode)
  hasNext : ∀ here here', Both C S here here' → E.hasNext here = E.hasNext here'
  readRow : Attempt.Mirrors (Both (· = ·) (Both C S)) (· = ·) E.readRow E.readRow
  insertRow : ∀ cells, W.insert cells →
    Attempt.Mirrors (Both (· = ·) (Both C S)) (· = ·) (E.insertRow cells) (E.insertRow cells)
  updateRow : ∀ cells, W.replace cells →
    Attempt.Mirrors (Both (· = ·) (Both C S)) (· = ·) (E.updateRow cells) (E.updateRow cells)
  deleteRow : W.remove → Attempt.Mirrors (Both C S) (· = ·) E.deleteRow E.deleteRow
  close : Attempt.Mirrors (Both C S) (· = ·) E.close E.close
  letGoCursor : ∀ c c' s s', C c c' → S s s' → S (E.letGoCursor c s) (E.letGoCursor c' s')
  tupleReleased : ∀ s s', S s s' → S (E.tupleReleased s) (E.tupleReleased s')

/-! ## Tuples at hand -/

namespace Tuple

variable {R : σ → σ → Prop}

theorem mirrors_setValues (cells : List Cell) :
    Mirrors (Both (· = ·) R) (· = ·) (setValues cells : Action (Tuple × σ) Unit) (setValues cells) := by
  rintro ⟨tuple, s⟩ ⟨_, s'⟩ ⟨rfl, hs⟩
  unfold setValues
  dsimp only
  cases tuple.checkLive with
  | error e => exact ⟨rfl, rfl, hs⟩
  | ok _ => exact ⟨rfl, rfl, hs⟩

theorem mirrors_dispose {released released' : σ → σ} (h : ∀ s s', R s s' → R (released s) (released' s')) :
    Mirrors (Both (· = ·) R) (· = ·) (dispose released) (dispose released') := by
  rintro ⟨tuple, s⟩ ⟨_, s'⟩ ⟨rfl, hs⟩
  unfold dispose
  dsimp only
  cases tuple.checkLive with
  | error e => exact ⟨rfl, rfl, hs⟩
  | ok _ => exact ⟨rfl, rfl, h s s' hs⟩

end Tuple

namespace Engine.Mirrors

variable (h : E.Mirrors S C W txn txn' schema)
include h

theorem disposeTuple : Attempt.Mirrors (Both (· = ·) (Both C S)) (· = ·) E.disposeTuple E.disposeTuple :=
  Tuple.mirrors_dispose fun _ _ hs => ⟨hs.1, h.tupleReleased _ _ hs.2⟩

/-- **A tuple is held**, whatever it is made for. -/
theorem holdingTuple {A : α → α → Prop} {take : Action (κ × σ) Tuple} {body body' : Action (Tuple × κ × σ) α}
    (htake : Attempt.Mirrors (Both C S) (· = ·) take take)
    (hbody : Attempt.Mirrors (Both (· = ·) (Both C S)) A body body') :
    Attempt.Mirrors (Both C S) A (holding take E.letGoTuple body) (holding take E.letGoTuple body') := by
  refine Attempt.Mirrors.holding htake hbody ?_
  rintro tuple _ ⟨c, s⟩ ⟨c', s'⟩ rfl ⟨hc, hs⟩
  unfold Engine.letGoTuple Tuple.letGo
  dsimp only
  split
  · exact ⟨hc, hs⟩
  · exact ⟨hc, h.tupleReleased s s' hs⟩

theorem lockForWrite : Attempt.Mirrors (Both C S) (· = ·) E.lockForWrite E.lockForWrite :=
  (h.setLockMode _).bind_eq fun _ => h.lock _

theorem position (key : Key) (mode : SearchMode) :
    Attempt.Mirrors (Both C S) (· = ·) (E.position key mode) (E.position key mode) := by
  have hsearch : Attempt.Mirrors (Both (· = ·) (Both C S)) (· = ·) (E.searchHeld mode) (E.searchHeld mode) :=
    Attempt.Mirrors.held.bind_eq fun tuple => (h.search tuple mode).below
  refine h.holdingTuple (h.searchTuple key) (hsearch.outcome.bind fun found _ hfound => ?_)
  cases agree_eq_iff.1 hfound
  exact h.disposeTuple.bind_eq fun _ => Attempt.Mirrors.same found

/-! ## A call on rows -/

/-- **A cursor of its own is opened, used and closed.** -/
theorem withCursor (write : Bool) {body body' : Action (κ × σ) α}
    (hbody : Attempt.Mirrors (Both C S) (· = ·) body body') :
    Attempt.Mirrors S (· = ·) (ByKey.withCursor E txn schema write body)
      (ByKey.withCursor E txn' schema write body') := by
  refine Attempt.Mirrors.holding h.openTable ?_ h.letGoCursor
  have hlocked : Attempt.Mirrors (Both C S) (· = ·)
      (do
        if write then E.lockForWrite
        body)
      (do
        if write then E.lockForWrite
        body') := by
    cases write with
    | false => exact hbody
    | true => exact h.lockForWrite.bind_eq fun _ => hbody
  refine hlocked.outcome.bind fun result _ hresult => ?_
  cases agree_eq_iff.1 hresult
  refine h.close.outcome.bind fun closed _ hclosed => ?_
  cases agree_eq_iff.1 hclosed
  exact Attempt.Mirrors.ofExcept_bind fun _ _ => Attempt.Mirrors.ofExcept_bind fun _ _ => Attempt.Mirrors.pure rfl

theorem finish : Attempt.Mirrors (Both (· = ·) (Both C S)) (· = ·) (ByKey.finish E) (ByKey.finish E) :=
  (Tuple.mirrors_setValues []).bind_eq fun _ => h.disposeTuple

/-- **A row is looked for**, and used if it is found. -/
theorem find (key : Row) {use use' : Row → Action (Tuple × κ × σ) α}
    (huse : ∀ row, Attempt.Mirrors (Both (· = ·) (Both C S)) (· = ·) (use row) (use' row)) :
    Attempt.Mirrors (Both C S) (· = ·) (ByKey.find E schema key use) (ByKey.find E schema key use') := by
  refine Attempt.Mirrors.ofExcept_bind fun leading _ => (h.position leading _).bind_eq fun positioned => ?_
  refine Attempt.Mirrors.state.bind fun here here' hhere => ?_
  rw [h.hasNext here here' hhere]
  split
  · exact Attempt.Mirrors.pure rfl
  refine h.holdingTuple h.readTuple (h.readRow.bind_eq fun _ => Attempt.Mirrors.held.bind_eq fun tuple => ?_)
  refine Attempt.Mirrors.ofExcept_bind fun row _ => ?_
  split
  · exact (huse row).bind_eq fun _ => Attempt.Mirrors.pure rfl
  · exact h.disposeTuple.bind_eq fun _ => Attempt.Mirrors.pure rfl

theorem insertPayload {payload : List Cell} (hpayload : W.insert payload) :
    Attempt.Mirrors (Both C S) (· = ·) (ByKey.insertPayload E payload) (ByKey.insertPayload E payload) :=
  h.holdingTuple h.readTuple ((h.insertRow payload hpayload).bind_eq fun _ => h.finish)

theorem replaceFound {payload : List Cell} (hpayload : W.replace payload) :
    Attempt.Mirrors (Both (· = ·) (Both C S)) (· = ·) (do E.updateRow payload; ByKey.finish E)
      (do E.updateRow payload; ByKey.finish E) :=
  (h.updateRow payload hpayload).bind_eq fun _ => h.finish

theorem load (key : Row) : Attempt.Mirrors S (· = ·) (ByKey.load E txn schema key) (ByKey.load E txn' schema key) :=
  h.withCursor false (h.find key fun _ => h.finish.bind_eq fun _ => Attempt.Mirrors.pure rfl)

variable {row : Row}

theorem insert (hinsert : ∀ payload, schema.encodeRow row = .ok payload → W.insert payload) :
    Attempt.Mirrors S (· = ·) (ByKey.insert E txn schema row) (ByKey.insert E txn' schema row) :=
  h.withCursor true (Attempt.Mirrors.ofExcept_bind fun payload hpayload => h.insertPayload (hinsert payload hpayload))

theorem update (hreplace : ∀ payload, schema.encodeRow row = .ok payload → W.replace payload) :
    Attempt.Mirrors S (· = ·) (ByKey.update E txn schema row) (ByKey.update E txn' schema row) := by
  refine h.withCursor true ((h.find row fun _ => ?_).bind_eq fun _ => Attempt.Mirrors.pure rfl)
  exact Attempt.Mirrors.ofExcept_bind fun payload hpayload => h.replaceFound (hreplace payload hpayload)

theorem insertOrUpdate (hinsert : ∀ payload, schema.encodeRow row = .ok payload → W.insert payload)
    (hreplace : ∀ payload, schema.encodeRow row = .ok payload → W.replace payload) :
    Attempt.Mirrors S (· = ·) (ByKey.insertOrUpdate E txn schema row) (ByKey.insertOrUpdate E txn' schema row) := by
  refine h.withCursor true (Attempt.Mirrors.ofExcept_bind fun payload hpayload => ?_)
  refine (h.find row fun _ => h.replaceFound (hreplace payload hpayload)).bind_eq fun hit => ?_
  split
  · exact Attempt.Mirrors.pure rfl
  · exact (h.insertPayload (hinsert payload hpayload)).bind_eq fun _ => Attempt.Mirrors.pure rfl

theorem delete (hremove : W.remove) (key : Row) :
    Attempt.Mirrors S (· = ·) (ByKey.delete E txn schema key) (ByKey.delete E txn' schema key) := by
  refine h.withCursor true ((h.find key fun _ => ?_).bind_eq fun _ => Attempt.Mirrors.pure rfl)
  exact (h.deleteRow hremove).below.bind_eq fun _ => h.finish

end Engine.Mirrors
end RowStore

import RowStore.Client
import RowStore.Proofs.CursorPlaces
import RowStore.Proofs.FailedReads

/-!
# What a client counts

A client is called in any order, inside and outside of transactions, and the scans that it has opened are used up, in
part or not at all (`Client.Call`).  Meanwhile a record is kept of what comes of the calls, and of the rows that the
caller's functions are handed (`Client.Event`).  No call counts anything but what goes into the record
(`tallied_perform`), so after any calls the counters are the tally of the record, except that a traversal is counted
whether or not its scan could be opened (`counters_count_attempts`, `unopened_traversal_counted`).
-/
namespace RowStore

open Attempt

variable {σ τ κ ρ α β ε : Type} {E : Engine σ τ κ}

/-! ## What the caller's functions keep -/

theorem Attempt.Keeps.exhaust {P : σ → Prop} {m : Attempt ε σ (Option α)} (hm : Keeps P m) :
    ∀ limit, Keeps P (Attempt.exhaust m limit)
  | 0 => fun _ h => h
  | limit + 1 => .bind hm fun
    | none => fun _ h => h
    | some _ => .bind (Keeps.exhaust hm limit) fun _ _ h => h

section

variable {P : ρ → Prop}

namespace Scan

theorem keeps_nextMapped {f : Row → ρ → β × ρ} (hf : ∀ row notes, P notes → P (f row notes).2) :
    Keeps (fun here : ρ × Scan κ × σ => P here.1) (nextMapped E f) := by
  unfold nextMapped
  refine .bind (fun _ h => h) fun
    | none => fun _ h => h
    | some row => fun here h => hf row here.1 h

/-- **The notes of a caller change only by its own function.** -/
theorem keeps_forEach {visit : ρ → Row → ρ} (hvisit : ∀ notes row, P notes → P (visit notes row)) (txn : τ)
    (plan : Plan) : Keeps (fun here : ρ × σ => P here.1) (Scan.forEach E txn plan visit) := by
  rintro ⟨notes, s⟩ h
  unfold Scan.forEach
  dsimp only
  rcases Scan.open E txn plan false s with ⟨e | scan, s⟩
  · exact h
  have hread : Keeps (fun here : ρ × Scan κ × σ => P here.1) (do
      let _ ← collect E (fun row notes => ((), visit notes row)) (scan.rowBound E s + 1)
      (close E : Action (Scan κ × σ) Unit)) :=
    .bind (.exhaust (keeps_nextMapped fun row notes => hvisit notes row) _) fun _ _ h => h
  exact hread (notes, scan, s) h

end Scan

namespace Sweep

theorem keeps_next {decide : Row → ρ → Mutation × ρ} (hdecide : ∀ row notes, P notes → P (decide row notes).2)
    (txn : τ) : Keeps (fun here : ρ × Scan κ × σ => P here.1) (Sweep.next E txn decide) := by
  unfold Sweep.next
  refine .bind (Scan.keeps_nextMapped hdecide) fun
    | none => fun _ h => h
    | some mutation => .bind (fun _ h => h) fun here => .bind (fun _ h => h) fun
      | .ok _ => fun _ h => h
      | .error _ => .bind (fun _ h => h) fun _ _ h => h

end Sweep

/-- **A transaction does nothing to the caller's notes** but what its body does. -/
theorem Client.keeps_inTransaction {level : IsolationLevel} {embed : Error → ε} {body : τ → Attempt ε (ρ × σ) α}
    (hbody : ∀ txn, Keeps (fun here : ρ × σ => P here.1) (body txn)) :
    Keeps (fun here : ρ × σ => P here.1) (Client.inTransaction E level embed body) := by
  unfold Client.inTransaction
  refine .bind (fun _ h => h) fun txn => .bind (.outcome (hbody txn)) fun
    | .ok _ => .bind (fun _ h => h) fun _ _ h => h
    | .error _ => .bind (fun _ h => h) fun _ _ h => h

end

namespace Client

/-! ## Calls and their record -/

/-- What comes of a call, or happens during one. -/
inductive Event
  /-- A load ended, and a row was found or not. -/
  | loaded (found : Except Error Bool)
  | inserted (done : Except Error Unit)
  | updated (replaced : Except Error Bool)
  | upserted (replaced : Except Error Bool)
  | deleted (removed : Except Error Bool)
  /-- A traversal was asked for, and its scan was opened or not. -/
  | traversal (secondary write : Bool) (opened : Except Error Unit)
  /-- A function of the caller's was handed a row. -/
  | visited (row : Row)

/-- What a caller does with the rows of an open scan: it maps them, or decides on mutations of them. -/
inductive Reader (τ ρ β : Type)
  | mapping (f : Row → ρ → β × ρ)
  | mutating (txn : τ) (decide : Row → ρ → Mutation × ρ)

/-- What a client is called for.  Open scans go by the order in which they were opened. -/
inductive Call (σ τ ρ β : Type)
  /-- Something else happens to the engine. -/
  | meanwhile (work : σ → σ)
  /-- A transaction is begun for some calls, and fails unless the record of what has come of them is accepted. -/
  | inTransaction (level : IsolationLevel) (body : τ → List (Call σ τ ρ β)) (accepts : List Event → Bool)
  | load (txn : τ) (schema : TableSchema) (key : Row)
  | insert (txn : τ) (schema : TableSchema) (row : Row)
  | update (txn : τ) (schema : TableSchema) (row : Row)
  | insertOrUpdate (txn : τ) (schema : TableSchema) (row : Row)
  | delete (txn : τ) (schema : TableSchema) (key : Row)
  | forEach (txn : τ) (plan : Plan) (visit : ρ → Row → ρ)
  | fold (txn : τ) (plan : Plan) (f : ρ → Row → ρ) (initial : ρ)
  /-- A scan is opened to be read. -/
  | map (txn : τ) (plan : Plan) (f : Row → ρ → β × ρ)
  /-- A scan is opened to be swept. -/
  | apply (txn : τ) (plan : Plan) (decide : Row → ρ → Mutation × ρ)
  /-- The next row of a scan is asked for. -/
  | pull (scan : Nat)
  /-- The rows that are left are asked for. -/
  | drain (scan limit : Nat)
  /-- A scan is closed, or let go of. -/
  | close (scan : Nat)

/-- A client at work: the scans that it has opened, the notes that its caller keeps, and the record. -/
structure Desk (τ κ ρ β : Type) where
  client : Client
  scans : List (Scan κ × Reader τ ρ β) := []
  notes : ρ
  events : List Event := []

namespace Reader

variable (E : Engine σ τ κ)

/-- The caller's function, with every row that it is handed on record. -/
def onRecord (f : Row → ρ → α × ρ) (row : Row) (notes : List Event × ρ) : α × List Event × ρ :=
  ((f row notes.2).1, (notes.1 ++ [.visited row], (f row notes.2).2))

def pull : Reader τ ρ β → (Client × List Event × ρ) × Scan κ × σ → (Client × List Event × ρ) × Scan κ × σ
  | mapping f => quietly (Scan.nextMapped E (visiting (onRecord f)))
  | mutating txn decide => quietly (Sweep.next E txn (visiting (onRecord decide)))

def drain (limit : Nat) :
    Reader τ ρ β → (Client × List Event × ρ) × Scan κ × σ → (Client × List Event × ρ) × Scan κ × σ
  | mapping f => quietly (Scan.collect E (visiting (onRecord f)) limit)
  | mutating txn decide => quietly (Sweep.drain E txn (visiting (onRecord decide)) limit)

end Reader

namespace Desk

variable (E : Engine σ τ κ)

def onRow (call : Action (Client × σ) α) (event : Except Error α → Event) :
    Desk τ κ ρ β × σ → Desk τ κ ρ β × σ := fun (desk, s) =>
  let (r, (client, s)) := call (desk.client, s)
  ({ desk with client, events := desk.events ++ [event r] }, s)

def onScan (i : Nat)
    (use : Reader τ ρ β → (Client × List Event × ρ) × Scan κ × σ → (Client × List Event × ρ) × Scan κ × σ) :
    Desk τ κ ρ β × σ → Desk τ κ ρ β × σ := fun (desk, s) =>
  match desk.scans[i]? with
  | none => (desk, s)
  | some (scan, reader) =>
    let ((client, events, notes), scan, s) := use reader ((desk.client, desk.events, desk.notes), scan, s)
    ({ client, events, notes, scans := desk.scans.set i (scan, reader) }, s)

/-- Whether the scan of a plan can be opened. -/
def opening (txn : τ) (plan : Plan) (write : Bool) (desk : Desk τ κ ρ β) (s : σ) : Event :=
  .traversal plan.target.isSecondary write ((Client.openScan E txn plan write (desk.client, s)).1.map fun _ => ())

def openScan (txn : τ) (plan : Plan) (write : Bool) (reader : Reader τ ρ β) :
    Desk τ κ ρ β × σ → Desk τ κ ρ β × σ := fun (desk, s) =>
  let events := desk.events ++ [desk.opening E txn plan write s]
  match Client.openScan E txn plan write (desk.client, s) with
  | (.ok scan, (client, s)) => ({ desk with client, events, scans := desk.scans ++ [(scan, reader)] }, s)
  | (.error _, (client, s)) => ({ desk with client, events }, s)

/-- The caller's function, with every row that it is handed on record. -/
def onRecord (visit : ρ → Row → ρ) (notes : List Event × ρ) (row : Row) : List Event × ρ :=
  (notes.1 ++ [.visited row], visit notes.2 row)

def forEach (txn : τ) (plan : Plan) (visit : ρ → Row → ρ) : Desk τ κ ρ β × σ → Desk τ κ ρ β × σ := fun (desk, s) =>
  let events := desk.events ++ [desk.opening E txn plan false s]
  let (_, ((client, events, notes), s)) :=
    Client.forEach E txn plan (onRecord visit) ((desk.client, events, desk.notes), s)
  ({ desk with client, events, notes }, s)

/-- A fold that fails loses what has been accumulated, and the record with it; going through the same rows does not. -/
def fold (txn : τ) (plan : Plan) (f : ρ → Row → ρ) (initial : ρ) : Desk τ κ ρ β × σ → Desk τ κ ρ β × σ :=
  fun (desk, s) =>
    let events := desk.events ++ [desk.opening E txn plan false s]
    let (_, (client, s')) := Client.fold E txn plan (onRecord f) (events, initial) (desk.client, s)
    let (_, ((_, events, _), _)) := Client.forEach E txn plan (onRecord f) ((desk.client, events, initial), s)
    ({ desk with client, events }, s')

end Desk

mutual

/-- Calls a client, and keeps the record. -/
def perform (E : Engine σ τ κ) : Call σ τ ρ β → Desk τ κ ρ β × σ → Desk τ κ ρ β × σ
  | .meanwhile work => fun (desk, s) => (desk, work s)
  | .inTransaction level body accepts => quietly (inTransaction E level (fun _ => ()) fun txn here =>
      let here := performAll E (body txn) here
      (if accepts here.1.events then .ok () else .error (), here))
  | .load txn schema key => Desk.onRow (load E txn schema key) fun r => .loaded (r.map Option.isSome)
  | .insert txn schema row => Desk.onRow (insert E txn schema row) .inserted
  | .update txn schema row => Desk.onRow (update E txn schema row) .updated
  | .insertOrUpdate txn schema row => Desk.onRow (insertOrUpdate E txn schema row) .upserted
  | .delete txn schema key => Desk.onRow (delete E txn schema key) .deleted
  | .forEach txn plan visit => Desk.forEach E txn plan visit
  | .fold txn plan f initial => Desk.fold E txn plan f initial
  | .map txn plan f => Desk.openScan E txn plan false (.mapping f)
  | .apply txn plan decide => Desk.openScan E txn plan true (.mutating txn decide)
  | .pull scan => Desk.onScan scan (Reader.pull E)
  | .drain scan limit => Desk.onScan scan (Reader.drain E limit)
  | .close scan => Desk.onScan scan fun _ here => (here.1, quietly (Scan.close E) here.2)

def performAll (E : Engine σ τ κ) : List (Call σ τ ρ β) → Desk τ κ ρ β × σ → Desk τ κ ρ β × σ
  | [], here => here
  | call :: calls, here => performAll E calls (perform E call here)

end

/-! ## What is counted -/

/-- What a client counts of an event.  A failed call on a row is not counted, a traversal is in any case. -/
def Event.counted? : Event → Option Occurrence
  | loaded r => r.toOption.map .loaded
  | inserted r => r.toOption.map fun _ => .inserted
  | updated r => r.toOption.map .updated
  | upserted r => r.toOption.map .upserted
  | deleted r => r.toOption.map .deleted
  | traversal secondary write _ => some (.traversal secondary write)
  | visited _ => some .visited

/-- The number of events of each kind: failed calls are of no kind, and a traversal is one whose scan was opened. -/
def tally (events : List Event) : Counters where
  loadHits := events.countP fun | .loaded (.ok found) => found | _ => false
  loadMisses := events.countP fun | .loaded (.ok found) => !found | _ => false
  inserts := events.countP fun | .inserted (.ok ()) => true | _ => false
  updateHits := events.countP fun | .updated (.ok replaced) => replaced | _ => false
  updateMisses := events.countP fun | .updated (.ok replaced) => !replaced | _ => false
  upsertUpdates := events.countP fun | .upserted (.ok replaced) => replaced | _ => false
  upsertInserts := events.countP fun | .upserted (.ok replaced) => !replaced | _ => false
  deleteHits := events.countP fun | .deleted (.ok removed) => removed | _ => false
  deleteMisses := events.countP fun | .deleted (.ok removed) => !removed | _ => false
  primaryTraversals := events.countP fun | .traversal secondary _ (.ok ()) => !secondary | _ => false
  secondaryTraversals := events.countP fun | .traversal secondary _ (.ok ()) => secondary | _ => false
  writeTraversals := events.countP fun | .traversal _ write (.ok ()) => write | _ => false
  rowsVisited := events.countP fun | .visited _ => true | _ => false

/-- The number of traversals of a kind whose scan could not be opened. -/
def unopened (kind : Bool → Bool → Bool) (events : List Event) : Nat :=
  events.countP fun | .traversal secondary write (.error _) => kind secondary write | _ => false

/-- The tally with the traversals that were asked for in place of those that were opened. -/
def attempts (events : List Event) : Counters :=
  { tally events with
    primaryTraversals := (tally events).primaryTraversals + unopened (fun secondary _ => !secondary) events
    secondaryTraversals := (tally events).secondaryTraversals + unopened (fun secondary _ => secondary) events
    writeTraversals := (tally events).writeTraversals + unopened (fun _ write => write) events }

theorem attempts_snoc (events : List Event) (event : Event) :
    attempts (events ++ [event]) = event.counted?.elim (attempts events) (attempts events).count := by
  unfold attempts tally unopened
  simp only [List.countP_append, List.countP_singleton]
  cases event with
  | loaded r | updated r | upserted r | deleted r => rcases r with e | _ | _ <;> rfl
  | inserted r => cases r <;> rfl
  | traversal secondary write r =>
    -- a traversal adds to one of its kinds' two summands
    cases secondary <;> cases write <;> cases r <;>
      simp [Event.counted?, Counters.count, Nat.add_assoc, Nat.add_comm, Nat.add_left_comm]
  | visited row => rfl

/-- A client has counted certain events, and nothing else. -/
def Tallied (options : Options) (client : Client) (events : List Event) : Prop :=
  client = { options, counters := some (attempts events) }

namespace Tallied

variable {options : Options} {client : Client} {events : List Event}

theorem snoc (h : Tallied options client events) (event : Event) :
    Tallied options (event.counted?.elim client client.count) (events ++ [event]) := by
  unfold Tallied at h ⊢
  rw [attempts_snoc, h]
  cases event.counted? <;> rfl

/-- **A row is counted as it is handed over.** -/
theorem visiting {f : Row → List Event × ρ → α × List Event × ρ}
    (hf : ∀ row notes, (f row notes).2.1 = notes.1 ++ [.visited row]) (row : Row) (notes : Client × List Event × ρ)
    (h : Tallied options notes.1 notes.2.1) :
    Tallied options (Client.visiting f row notes).2.1 (Client.visiting f row notes).2.2.1 := by
  have hsnoc := h.snoc (.visited row)
  rw [← hf row notes.2] at hsnoc
  exact hsnoc

end Tallied

/-- The client of a desk has counted what is on record. -/
def Desk.Tallied (options : Options) (desk : Desk τ κ ρ β) : Prop := Client.Tallied options desk.client desk.events

section

variable {options : Options}

theorem tallied_onRow {call : Action σ α} {occurrence : α → Occurrence} {event : Except Error α → Event}
    (hok : ∀ a, (event (.ok a)).counted? = some (occurrence a)) (herror : ∀ e, (event (.error e)).counted? = none)
    {here : Desk τ κ ρ β × σ} (h : here.1.Tallied options) :
    (Desk.onRow (counted call occurrence) event here).1.Tallied options := by
  obtain ⟨desk, s⟩ := here
  have hcounted : counted call occurrence (desk.client, s) = match call s with
      | (.ok a, s) => (.ok a, (desk.client.count (occurrence a), s))
      | (.error e, s) => (.error e, (desk.client, s)) := by
    have hcall : (liftM call : Action (Client × σ) α) (desk.client, s) = ((call s).1, (desk.client, (call s).2)) := rfl
    unfold counted
    rw [bind_apply, hcall]
    rcases call s with ⟨e | a, s⟩ <;> rfl
  unfold Desk.onRow
  dsimp only
  rw [hcounted]
  rcases call s with ⟨e | a, s⟩
  · have hsnoc := Tallied.snoc h (event (.error e))
    rw [herror] at hsnoc
    exact hsnoc
  · have hsnoc := Tallied.snoc h (event (.ok a))
    rw [hok] at hsnoc
    exact hsnoc

/-- Rows that are read or swept leave a client that has counted what is on record. -/
theorem tallied_onScan
    (use : Reader τ ρ β → (Client × List Event × ρ) × Scan κ × σ → (Client × List Event × ρ) × Scan κ × σ)
    (huse : ∀ reader here, Tallied options here.1.1 here.1.2.1 →
      Tallied options (use reader here).1.1 (use reader here).1.2.1)
    (i : Nat) (here : Desk τ κ ρ β × σ) (h : here.1.Tallied options) : (Desk.onScan i use here).1.Tallied options := by
  obtain ⟨desk, s⟩ := here
  unfold Desk.onScan
  dsimp only
  cases desk.scans[i]? with
  | none => exact h
  | some entry => exact huse entry.2 ((desk.client, desk.events, desk.notes), entry.1, s) h

theorem tallied_pull (reader : Reader τ ρ β) (here : (Client × List Event × ρ) × Scan κ × σ)
    (h : Tallied options here.1.1 here.1.2.1) :
    Tallied options (reader.pull E here).1.1 (reader.pull E here).1.2.1 := by
  cases reader with
  | mapping f => exact Scan.keeps_nextMapped (Tallied.visiting fun _ _ => rfl) here h
  | mutating txn decide => exact Sweep.keeps_next (Tallied.visiting fun _ _ => rfl) txn here h

theorem tallied_drain (limit : Nat) (reader : Reader τ ρ β) (here : (Client × List Event × ρ) × Scan κ × σ)
    (h : Tallied options here.1.1 here.1.2.1) :
    Tallied options (reader.drain E limit here).1.1 (reader.drain E limit here).1.2.1 := by
  cases reader with
  | mapping f => exact Keeps.exhaust (Scan.keeps_nextMapped (Tallied.visiting fun _ _ => rfl)) limit here h
  | mutating txn decide => exact Keeps.exhaust (Sweep.keeps_next (Tallied.visiting fun _ _ => rfl) txn) limit here h

/-- **A traversal is counted before its scan is opened**, so whether it is opened or not. -/
theorem tallied_openScan (txn : τ) (plan : Plan) (write : Bool) (reader : Reader τ ρ β) {here : Desk τ κ ρ β × σ}
    (h : here.1.Tallied options) : (Desk.openScan E txn plan write reader here).1.Tallied options := by
  obtain ⟨desk, s⟩ := here
  have hsnoc := Tallied.snoc h (desk.opening E txn plan write s)
  unfold Desk.openScan Client.openScan
  dsimp only
  rcases Scan.open E txn (desk.client.prepare plan write).1 write s with ⟨e | scan, s'⟩ <;> exact hsnoc

theorem tallied_forEach (txn : τ) (plan : Plan) (visit : ρ → Row → ρ) (here : Desk τ κ ρ β × σ)
    (h : here.1.Tallied options) : (Desk.forEach E txn plan visit here).1.Tallied options := by
  obtain ⟨desk, s⟩ := here
  let keep (notes : Client × List Event × ρ) (row : Row) : Client × List Event × ρ :=
    (notes.1.count .visited, Desk.onRecord visit notes.2 row)
  have hkeep : ∀ notes row, Tallied options notes.1 notes.2.1 →
      Tallied options (keep notes row).1 (keep notes row).2.1 := fun _ row h => h.snoc (.visited row)
  exact Scan.keeps_forEach (E := E) hkeep txn (desk.client.prepare plan false).1
    (((desk.client.prepare plan false).2, desk.events ++ [desk.opening E txn plan false s], desk.notes), s)
    (Tallied.snoc h (desk.opening E txn plan false s))

theorem fold_client (txn : τ) (plan : Plan) (f : α → Row → α) (initial : α) (client : Client) (s : σ) :
    (Client.fold E txn plan f initial (client, s)).2.1 =
      (Client.forEach E txn plan f ((client, initial), s)).2.1.1 := by
  unfold Client.fold
  dsimp only
  rcases Client.forEach E txn plan f ((client, initial), s) with ⟨e | _, ⟨client', a⟩, s'⟩ <;> rfl

theorem tallied_fold (txn : τ) (plan : Plan) (f : ρ → Row → ρ) (initial : ρ) {here : Desk τ κ ρ β × σ}
    (h : here.1.Tallied options) : (Desk.fold E txn plan f initial here).1.Tallied options := by
  obtain ⟨desk, s⟩ := here
  have hforEach := tallied_forEach (E := E) txn plan f ({ desk with notes := initial }, s) h
  unfold Desk.Tallied Desk.fold
  dsimp only
  rw [fold_client]
  exact hforEach

mutual

/-- **No call counts anything but what goes into the record.** -/
theorem tallied_perform (E : Engine σ τ κ) : ∀ (call : Call σ τ ρ β) (here : Desk τ κ ρ β × σ),
    here.1.Tallied options → (perform E call here).1.Tallied options
  | .meanwhile _, _, h => h
  | .inTransaction _ body _, here, h =>
    keeps_inTransaction (P := Desk.Tallied options) (fun txn here h => tallied_performAll E (body txn) here h) here h
  | .load .., _, h | .insert .., _, h | .update .., _, h | .insertOrUpdate .., _, h | .delete .., _, h =>
    tallied_onRow (fun _ => rfl) (fun _ => rfl) h
  | .forEach txn plan visit, here, h => tallied_forEach txn plan visit here h
  | .fold txn plan f initial, _, h => tallied_fold txn plan f initial h
  | .map txn plan _, _, h => tallied_openScan txn plan false _ h
  | .apply txn plan _, _, h => tallied_openScan txn plan true _ h
  | .pull scan, here, h => tallied_onScan (Reader.pull E) tallied_pull scan here h
  | .drain scan limit, here, h => tallied_onScan (Reader.drain E limit) (tallied_drain limit) scan here h
  | .close scan, here, h =>
    tallied_onScan (fun _ here => (here.1, quietly (Scan.close E) here.2)) (fun _ _ h => h) scan here h

/-- **Nor do several calls.** -/
theorem tallied_performAll (E : Engine σ τ κ) : ∀ (calls : List (Call σ τ ρ β)) (here : Desk τ κ ρ β × σ),
    here.1.Tallied options → (performAll E calls here).1.Tallied options
  | [], _, h => h
  | call :: calls, here, h => tallied_performAll E calls _ (tallied_perform E call here h)

end

end

/-! ## The counters -/

theorem attempts_eq_tally_iff (events : List Event) :
    attempts events = tally events ↔ ∀ secondary write e, .traversal secondary write (.error e) ∉ events := by
  have hzero : ∀ kind : Bool → Bool → Bool, unopened kind events = 0 ↔
      ∀ secondary write e, kind secondary write = true → .traversal secondary write (.error e) ∉ events := by
    intro kind
    unfold unopened
    rw [List.countP_eq_zero]
    constructor
    · intro h secondary write e hkind hmem
      exact h _ hmem hkind
    · intro h event hmem hkind
      split at hkind
      · exact h _ _ _ hkind hmem
      · cases hkind
  constructor
  · intro h secondary write e
    have hprimary := congrArg Counters.primaryTraversals h
    have hsecondary := congrArg Counters.secondaryTraversals h
    cases secondary with
    | false => exact (hzero _).1 (Nat.add_eq_left.1 hprimary) false write e rfl
    | true => exact (hzero _).1 (Nat.add_eq_left.1 hsecondary) true write e rfl
  · intro h
    have hnone : ∀ kind : Bool → Bool → Bool, unopened kind events = 0 := fun kind =>
      (hzero kind).2 fun secondary write e _ => h secondary write e
    unfold attempts
    simp only [hnone, Nat.add_zero]

/-- **The counters are the tally of what has happened, and of the traversals that could not be opened.**  A new client
is called in any order, in any transactions, for rows and for scans that are read or swept to any point.  Then each
counter is the number of the calls that succeeded with its outcome, of the traversals of its kind that were opened, or
of the rows that were handed to the caller's functions, except that traversals which failed to open are counted too.  So
the counters are the tally just if none failed to. -/
theorem counters_count_attempts (E : Engine σ τ κ) (options : Options) (calls : List (Call σ τ ρ β)) (notes : ρ)
    (s : σ) :
    let desk := (performAll E calls ({ client := { options, counters := some {} }, notes }, s)).1
    desk.client.options = options ∧
    desk.client.counters = some { tally desk.events with
      primaryTraversals := (tally desk.events).primaryTraversals + unopened (fun secondary _ => !secondary) desk.events
      secondaryTraversals :=
        (tally desk.events).secondaryTraversals + unopened (fun secondary _ => secondary) desk.events
      writeTraversals := (tally desk.events).writeTraversals + unopened (fun _ write => write) desk.events } ∧
    (desk.client.counters = some (tally desk.events) ↔
      ∀ secondary write e, .traversal secondary write (.error e) ∉ desk.events) := by
  intro desk
  have htallied : desk.Tallied options := tallied_performAll E calls _ rfl
  unfold Desk.Tallied Tallied at htallied
  refine ⟨by rw [htallied], by rw [htallied]; rfl, ?_⟩
  rw [htallied, Option.some_inj]
  exact attempts_eq_tally_iff desk.events

open Memory Memory.Database in
/-- **A traversal of an index that there is not** fails before there is a scan, and is counted. -/
theorem unopened_traversal_counted :
    let call : Call Database Transaction Unit Unit :=
      .forEach ⟨1, .readCommitted⟩ { target := ⟨people, some "nope"⟩ } fun _ _ => ()
    let desk := (performAll engine [call] ({ client := { counters := some {} }, notes := () }, run peopleCalls)).1
    desk.events = [.traversal true false (.error (.unknownIndex "people" "nope"))] ∧ tally desk.events = {} ∧
      desk.client.counters = some { secondaryTraversals := 1 } := ⟨rfl, rfl, rfl⟩

end Client
end RowStore

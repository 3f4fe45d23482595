import RowStore.Proofs.FailedReads

/-!
# A scan and its parts

A scan is running, with a tuple, cursors and a row read ahead, or it is closed.  That it cannot be anything in between is
worth a proof where these change one by one, as in `ScanParts`: the cursors are opened first and the tuple is made behind
them, a row is taken out before the next one is read, the loop that reads closes the scan itself, and what fails may have
been closed before.  Such a scan opens, hands out rows and closes just as one that is whole (`ScanParts.open_eq`,
`pull_ofScan`, `close_ofScan`).  So whenever its caller sees it, its parts fit together (`ScanParts.Coherent`), and a
traversal that is over once is over for good (`scan_states_hold`).
-/
namespace RowStore

open Attempt

variable {σ τ κ ρ α β : Type}

/-! ## A scan in parts -/

/-- How far a scan in parts has come.  A caller sees no scan that is being opened or has only been positioned. -/
inductive Phase
  | opening
  | positioned
  | iterating
  | closed
  deriving DecidableEq, Inhabited

/-- A scan as parts that change one by one: what it owns, the row that has been read ahead, and its phase. -/
structure ScanParts (κ : Type) where
  plan : Plan
  cursors : Option (Cursors κ)
  tuple : Option Tuple
  next : Option Row
  phase : Phase

/-- What can go wrong in a scan in parts: what can go wrong in any scan, and that it is to read without a tuple. -/
inductive Lapse
  | failed (e : Error)
  | noTuple

namespace ScanParts

section

variable (E : Engine σ τ κ)

/-- Releases the tuple and the cursors, if there are any, unless that has been done. -/
def close : Attempt Lapse (ScanParts κ × σ) Unit := fun (p, s) =>
  if p.phase = .closed then (.ok (), (p, s))
  else
    let disposed : Except Error Unit × σ :=
      match p.tuple with
      | some tuple => ((Tuple.dispose E.tupleReleased (tuple, s)).1, (Tuple.dispose E.tupleReleased (tuple, s)).2.2)
      | none => (.ok (), s)
    let closed : Except Error Unit × σ :=
      match p.cursors with
      | some cursors => cursors.close E disposed.2
      | none => (.ok (), disposed.2)
    ((disposed.1 *> closed.1).mapError .failed, (⟨p.plan, none, none, none, .closed⟩, closed.2))

/-- Runs a call on the tuple and the cursor that rows are read through. -/
def reading (call : Action (Tuple × κ × σ) α) : Attempt Lapse (ScanParts κ × σ) α := fun (p, s) =>
  match p.cursors, p.tuple with
  | some cursors, some tuple =>
    let (r, (held, s)) := Holdings.onActive call (⟨tuple, cursors⟩, s)
    (r.mapError .failed, ({ p with cursors := some held.cursors, tuple := some held.tuple }, s))
  | _, _ => (.error .noTuple, (p, s))

def finish : Attempt Lapse (ScanParts κ × σ) (Option Row) := do
  close E
  return none

/-- Reads up to the next row to hand out.  The loop closes the scan itself where there is none. -/
def step : Nat → Attempt Lapse (ScanParts κ × σ) (Option Row)
  | 0 => finish E
  | fuel + 1 => do
    let (p, s) ← Attempt.state
    match p.cursors with
    | none => return none
    | some cursors =>
      if !(E.isPositioned (cursors.reader, s) && E.hasNext (cursors.reader, s)) then finish E
      else
        let row ← reading (Scan.readEntry E p.plan)
        reading (Tuple.clear : Action (Tuple × κ × σ) Unit)
        if !p.plan.continues row then finish E
        else
          reading (Attempt.below (E.advance p.plan.direction))
          Attempt.modify fun (p, s) => ({ p with phase := .iterating }, s)
          if p.plan.selects row then return some row
          step fuel

/-- Reads ahead, and closes the scan if that fails. -/
def advance : Attempt Lapse (ScanParts κ × σ) Unit := fun (p, s) =>
  let bound := (p.cursors.map fun cursors => E.entryBound (cursors.reader, s)).getD 0
  match step E (bound + 1) (p, s) with
  | (.ok next, (p, s)) => (.ok (), ({ p with next }, s))
  | (.error e, here) => (.error e, Attempt.quietly (close E) here)

/-- The index to walk and the key to start from. -/
def planned (plan : Plan) : Except Error (Option Index × Key) := do
  let index ← plan.target.secondaryIndex
  let key ← encodeLeading (← plan.target.keyColumns) plan.keyRow
  return (index, key)

/-- Opens and positions the cursors, and makes the tuple.  What has been opened when that fails stays owned. -/
def position (txn : τ) (write : Bool) : Attempt Lapse (ScanParts κ × σ) Unit := fun (p, s) =>
  match planned p.plan with
  | .error e => (.error (.failed e), (p, s))
  | .ok (index, key) =>
    match E.openTable txn p.plan.target.schema s with
    | (.error e, s) => (.error (.failed e), (p, s))
    | (.ok table, s) =>
      match Scan.openIndexCursor E txn index (table, s) with
      | (.error e, (table, s)) => (.error (.failed e), ({ p with cursors := some ⟨table, none⟩ }, s))
      | (.ok index, (table, s)) =>
        match Cursors.onActive (Scan.start E p.plan key write) (⟨table, index⟩, s) with
        | (.error e, (cursors, s)) => (.error (.failed e), ({ p with cursors := some cursors }, s))
        | (.ok tuple, (cursors, s)) =>
          (.ok (), ({ p with cursors := some cursors, tuple := some tuple, phase := .positioned }, s))

/-- Opens a scan and reads its first row; what a failure leaves behind is closed. -/
def «open» (txn : τ) (plan : Plan) (write : Bool) : Attempt Lapse σ (ScanParts κ) := fun s =>
  match position E txn write (⟨plan, none, none, none, .opening⟩, s) with
  | (.error e, here) => (.error e, (Attempt.quietly (close E) here).2)
  | (.ok (), here) =>
    match advance E here with
    | (.error e, (_, s)) => (.error e, s)
    | (.ok (), (p, s)) => (.ok p, s)

/-- Hands out the row that was read ahead and reads the next one. -/
def pull : Attempt Lapse (ScanParts κ × σ) (Option Row) := fun (p, s) =>
  match p.next with
  | none => (.ok none, (p, s))
  | some row =>
    match advance E ({ p with next := none }, s) with
    | (.ok (), here) => (.ok (some row), here)
    | (.error e, here) => (.error e, here)

end

def hasNext (p : ScanParts κ) : Bool := p.next.isSome

/-- The tuple is there, and so are the cursors: two if the scan walks a secondary index, and one otherwise. -/
def OwnsAll (p : ScanParts κ) : Prop :=
  p.tuple.isSome = true ∧ p.cursors.map (·.list.length) = some (if p.plan.target.isSecondary then 2 else 1)

/-- **The parts of a scan fit together.** -/
structure Coherent (p : ScanParts κ) : Prop where
  seen : p.phase = .iterating ∨ p.phase = .closed
  hasNext_iff : p.hasNext = true ↔ p.phase = .iterating
  owns_iff : p.phase = .iterating ↔ p.OwnsAll
  closed_iff : p.phase = .closed ↔ p.tuple = none ∧ p.cursors = none

/-! ## Parts of a scan that is one -/

/-- The parts of a scan that is running or closed. -/
def ofScan (scan : Scan κ) : ScanParts κ :=
  match scan.progress with
  | .running held row => ⟨scan.plan, some held.cursors, some held.tuple, some row, .iterating⟩
  | .closed => ⟨scan.plan, none, none, none, .closed⟩

/-- The parts of a scan that owns all and has no row to hand out. -/
def amid (plan : Plan) (held : Holdings κ) (phase : Phase) : ScanParts κ :=
  ⟨plan, some held.cursors, some held.tuple, none, phase⟩

variable {E : Engine σ τ κ} {plan : Plan} {held : Holdings κ} {phase : Phase} {s : σ}

theorem close_amid (hphase : phase ≠ .closed) (next : Option Row) :
    close E (⟨plan, some held.cursors, some held.tuple, next, phase⟩, s) =
      ((held.close E s).1.mapError .failed, (ofScan ⟨plan, .closed⟩, (held.close E s).2)) := by
  exact (if_neg hphase).trans rfl

theorem reading_amid (call : Action (Tuple × κ × σ) α) :
    reading call (amid plan held phase, s) = ((Holdings.onActive call (held, s)).1.mapError .failed,
      (amid plan (Holdings.onActive call (held, s)).2.1 phase, (Holdings.onActive call (held, s)).2.2)) := rfl

end ScanParts

namespace Holdings

variable {plan : Plan}

theorem onActive_bind (m : Action (Tuple × κ × σ) α) (f : α → Action (Tuple × κ × σ) β) (here : Holdings κ × σ) :
    onActive (m >>= f) here = match onActive m here with
      | (.ok a, here) => onActive (f a) here
      | (.error e, here) => (.error e, here) := by
  obtain ⟨⟨tuple, table, index⟩, s⟩ := here
  cases index with
  | none =>
    unfold onActive
    dsimp only
    rw [bind_apply]
    rcases m (tuple, table, s) with ⟨e | a, tuple, table, s⟩ <;> rfl
  | some index =>
    unfold onActive
    dsimp only
    rw [bind_apply]
    rcases m (tuple, index, s) with ⟨e | a, tuple, index, s⟩ <;> rfl

theorem onActive_pure (a : α) (here : Holdings κ × σ) :
    onActive (pure a : Action (Tuple × κ × σ) α) here = (.ok a, here) := by
  obtain ⟨⟨tuple, table, index⟩, s⟩ := here
  cases index <;> rfl

theorem onActive_state (f : Tuple × κ × σ → Action (Tuple × κ × σ) α) (held : Holdings κ) (s : σ) :
    onActive (Attempt.state >>= f) (held, s) = onActive (f (held.tuple, held.cursors.reader, s)) (held, s) := by
  obtain ⟨tuple, table, index⟩ := held
  cases index <;> rfl

end Holdings

namespace ScanParts

variable {E : Engine σ τ κ} {plan : Plan} {held : Holdings κ} {phase : Phase} {s : σ}

theorem finish_amid (hphase : phase ≠ .closed) :
    finish E (amid plan held phase, s) = (((held.close E s).1.mapError .failed).map fun _ => none,
      (ofScan ⟨plan, .closed⟩, (held.close E s).2)) := by
  unfold finish
  rw [bind_apply]
  unfold amid
  rw [close_amid hphase]
  rcases held.close E s with ⟨e | _, s'⟩ <;> rfl

/-- How the loop ends, by how reading ahead ends: with a row, with the scan closed, or with an error and the scan open. -/
def Steps (E : Engine σ τ κ) (plan : Plan) : Except Error (Option Row) × Holdings κ × σ →
    Except Lapse (Option Row) × ScanParts κ × σ → Prop
  | (.ok (some row), held, s), stepped => stepped = (.ok (some row), (amid plan held .iterating, s))
  | (.ok none, held, s), stepped => stepped = (((held.close E s).1.mapError .failed).map fun _ => none,
    (ofScan ⟨plan, .closed⟩, (held.close E s).2))
  | (.error e, held, s), stepped => ∃ phase, phase ≠ .closed ∧ stepped = (.error (.failed e), (amid plan held phase, s))

/-- A call that fails ends the loop with the scan open; after one that succeeds the two go on together. -/
theorem steps_reading (call : Action (Tuple × κ × σ) α) {f : α → Action (Tuple × κ × σ) (Option Row)}
    {g : α → Attempt Lapse (ScanParts κ × σ) (Option Row)} (hphase : phase ≠ .closed)
    (h : ∀ a held s, Steps E plan (Holdings.onActive (f a) (held, s)) (g a (amid plan held phase, s))) :
    Steps E plan (Holdings.onActive (call >>= f) (held, s)) ((reading call >>= g) (amid plan held phase, s)) := by
  rw [Holdings.onActive_bind, bind_apply, reading_amid]
  rcases Holdings.onActive call (held, s) with ⟨e | a, held, s⟩
  · exact ⟨phase, hphase, rfl⟩
  · exact h a held s

theorem step_amid (fuel : Nat) : step E (fuel + 1) (amid plan held phase, s) =
    (if !(E.isPositioned (held.cursors.reader, s) && E.hasNext (held.cursors.reader, s)) then finish E
      else do
        let row ← reading (Scan.readEntry E plan)
        reading (Tuple.clear : Action (Tuple × κ × σ) Unit)
        if !plan.continues row then finish E
        else
          reading (Attempt.below (E.advance plan.direction))
          Attempt.modify fun (p, s) => ({ p with phase := .iterating }, s)
          if plan.selects row then return some row
          step E fuel) (amid plan held phase, s) := rfl

theorem steps_amid (plan : Plan) : ∀ (fuel : Nat) (held : Holdings κ) {phase : Phase} (s : σ), phase ≠ .closed →
    Steps E plan (Holdings.onActive (Scan.readOn E plan fuel) (held, s)) (step E fuel (amid plan held phase, s))
  | 0, held, phase, s, hphase => by
    have hread : Holdings.onActive (Scan.readOn E plan 0) (held, s) = (.ok none, (held, s)) := Holdings.onActive_pure _ _
    rw [hread]
    exact finish_amid hphase
  | fuel + 1, held, phase, s, hphase => by
    rw [Scan.readOn_eq, Holdings.onActive_state, step_amid]
    dsimp only
    split
    · rw [Holdings.onActive_pure]
      exact finish_amid hphase
    refine steps_reading (Scan.readEntry E plan) hphase fun row held s => ?_
    refine steps_reading Tuple.clear hphase fun _ held s => ?_
    split
    · rw [Holdings.onActive_pure]
      exact finish_amid hphase
    refine steps_reading (Attempt.below (E.advance plan.direction)) hphase fun _ held s => ?_
    -- from here on the phase is another one, and the induction is over any that is not closed
    rw [bind_apply]
    dsimp only [Attempt.modify]
    split
    · rw [Holdings.onActive_pure]
      rfl
    · exact steps_amid plan fuel held s (by decide)

theorem close_ofScan (scan : Scan κ) (s : σ) : close E (ofScan scan, s) =
    ((Scan.close E (scan, s)).1.mapError .failed,
      (ofScan (Scan.close E (scan, s)).2.1, (Scan.close E (scan, s)).2.2)) := by
  obtain ⟨plan, progress⟩ := scan
  cases progress with
  | closed => rfl
  | running held row => exact close_amid (by decide) (some row)

theorem advance_apply {p : ScanParts κ} {cursors : Cursors κ} (h : p.cursors = some cursors) (s : σ) :
    advance E (p, s) = match step E (E.entryBound (cursors.reader, s) + 1) (p, s) with
      | (.ok next, (p, s)) => (.ok (), ({ p with next }, s))
      | (.error e, here) => (.error e, Attempt.quietly (close E) here) := by
  unfold advance
  dsimp only
  rw [h]
  rfl

/-- **The parts read ahead as the scan does.** -/
theorem advance_amid (hphase : phase ≠ .closed) :
    advance E (amid plan held phase, s) = match Scan.readAhead E plan held s with
      | (.ok progress, s) => (.ok (), (ofScan ⟨plan, progress⟩, s))
      | (.error e, s) => (.error (.failed e), (ofScan ⟨plan, .closed⟩, s)) := by
  have hsteps := steps_amid (E := E) plan (E.entryBound (held.cursors.reader, s) + 1) held s hphase
  have hcursors : (amid plan held phase).cursors = some held.cursors := rfl
  rw [Scan.readAhead_apply, advance_apply hcursors]
  generalize step E (E.entryBound (held.cursors.reader, s) + 1) (amid plan held phase, s) = stepped at hsteps ⊢
  generalize Holdings.onActive (Scan.readOn E plan (E.entryBound (held.cursors.reader, s) + 1)) (held, s) = read at hsteps ⊢
  rcases read with ⟨e | _ | row, held, s⟩
  · obtain ⟨phase, hphase, rfl⟩ := hsteps
    dsimp only [Attempt.quietly]
    unfold amid
    rw [close_amid hphase]
  · cases hsteps
    dsimp only
    rcases held.close E s with ⟨e | _, s⟩ <;> rfl
  · cases hsteps
    rfl

theorem take_apply (txn : τ) (plan : Plan) (write : Bool) (s : σ) : Scan.take E txn plan write s =
    match planned plan with
    | .error e => (.error e, s)
    | .ok (index, key) =>
      match E.openTable txn plan.target.schema s with
      | (.error e, s) => (.error e, s)
      | (.ok table, s) =>
        match Scan.openIndexCursor E txn index (table, s) with
        | (.error e, (table, s)) => (.error e, Attempt.quietly (Cursors.close E ⟨table, none⟩) s)
        | (.ok index, (table, s)) =>
          match Cursors.onActive (Scan.start E plan key write) (⟨table, index⟩, s) with
          | (.error e, (cursors, s)) => (.error e, Attempt.quietly (cursors.close E) s)
          | (.ok tuple, (cursors, s)) => (.ok ⟨tuple, cursors⟩, s) := by
  unfold Scan.take planned
  rcases plan.target.secondaryIndex with e | index
  · rfl
  rcases plan.target.keyColumns with e | columns
  · rfl
  have hplanned : (do
      let index ← Except.ok index
      let key ← encodeLeading (← Except.ok columns) plan.keyRow
      return (index, key) : Except Error (Option Index × Key)) =
        (encodeLeading columns plan.keyRow).map fun key => (index, key) := rfl
  rw [hplanned]
  show (Attempt.ofExcept (encodeLeading columns plan.keyRow) >>= _) s = _
  rcases encodeLeading columns plan.keyRow with e | key
  · rfl
  refine (bind_apply (E.openTable txn plan.target.schema) _ s).trans ?_
  dsimp only [Except.map]
  rcases E.openTable txn plan.target.schema s with ⟨e | table, s⟩ <;> rfl

theorem position_fresh (txn : τ) (plan : Plan) (write : Bool) (s : σ) :
    match position E txn write (⟨plan, none, none, none, .opening⟩, s) with
    | (.ok (), here) => ∃ held s', here = (amid plan held .positioned, s') ∧ Scan.take E txn plan write s = (.ok held, s')
    | (.error e, here) => ∃ e', e = .failed e' ∧
      Scan.take E txn plan write s = (.error e', (Attempt.quietly (close E) here).2) := by
  rw [take_apply]
  unfold position
  dsimp only
  rcases planned plan with e | ⟨index, key⟩
  · exact ⟨e, rfl, rfl⟩
  dsimp only
  rcases E.openTable txn plan.target.schema s with ⟨e | table, s⟩
  · exact ⟨e, rfl, rfl⟩
  dsimp only
  rcases Scan.openIndexCursor E txn index (table, s) with ⟨e | index, table, s⟩
  · exact ⟨e, rfl, rfl⟩
  dsimp only
  rcases Cursors.onActive (Scan.start E plan key write) (⟨table, index⟩, s) with ⟨e | tuple, cursors, s⟩
  · exact ⟨e, rfl, rfl⟩
  · exact ⟨⟨tuple, cursors⟩, s, rfl, rfl⟩

/-- **They open as it does.** -/
theorem open_eq (txn : τ) (plan : Plan) (write : Bool) (s : σ) : ScanParts.open E txn plan write s =
    (((Scan.open E txn plan write s).1.map ofScan).mapError .failed, (Scan.open E txn plan write s).2) := by
  have hposition := position_fresh (E := E) txn plan write s
  unfold ScanParts.open Scan.open
  rw [bind_apply]
  generalize position E txn write (⟨plan, none, none, none, .opening⟩, s) = positioned at hposition ⊢
  rcases positioned with ⟨e | _, here⟩
  · obtain ⟨e', rfl, htake⟩ := hposition
    rw [htake]
    rfl
  · obtain ⟨held, s', rfl, htake⟩ := hposition
    rw [htake]
    dsimp only
    rw [advance_amid (by decide), bind_apply]
    rcases Scan.readAhead E plan held s' with ⟨e | progress, s⟩ <;> rfl

theorem pull_running (plan : Plan) (held : Holdings κ) (row : Row) (s : σ) :
    pull E (ofScan ⟨plan, .running held row⟩, s) = match advance E (amid plan held .iterating, s) with
      | (.ok (), here) => (.ok (some row), here)
      | (.error e, here) => (.error e, here) := rfl

/-- **They hand out rows as it does.** -/
theorem pull_ofScan (scan : Scan κ) (s : σ) : pull E (ofScan scan, s) =
    ((Scan.next E (scan, s)).1.mapError .failed, (ofScan (Scan.next E (scan, s)).2.1, (Scan.next E (scan, s)).2.2)) := by
  obtain ⟨plan, progress⟩ := scan
  cases progress with
  | closed => rfl
  | running held row =>
    rw [pull_running, advance_amid (by decide), Scan.next_running]
    rcases Scan.readAhead E plan held s with ⟨e | progress, s⟩ <;> rfl

end ScanParts

/-! ## As many cursors as the plan asks for -/

namespace Holdings

theorem index_onActive (call : Action (Tuple × κ × σ) α) (here : Holdings κ × σ) :
    (onActive call here).2.1.cursors.index.isSome = here.1.cursors.index.isSome := by
  obtain ⟨⟨tuple, table, index⟩, s⟩ := here
  cases index <;> rfl

end Holdings

theorem Cursors.index_onActive (call : Action (κ × σ) α) (here : Cursors κ × σ) :
    (onActive call here).2.1.index.isSome = here.1.index.isSome := by
  obtain ⟨⟨table, index⟩, s⟩ := here
  cases index <;> rfl

namespace Scan

variable {E : Engine σ τ κ} {plan : Plan}

/-- A running scan has a cursor on a secondary index just if it walks one. -/
def Furnished (scan : Scan κ) : Prop :=
  ∀ held row, scan.progress = .running held row → held.cursors.index.isSome = scan.plan.target.isSecondary

theorem index_of_planned {index : Option Index} {key : Key} (h : ScanParts.planned plan = .ok (index, key)) :
    index.isSome = plan.target.isSecondary := by
  obtain ⟨index', hindex, h⟩ := bind_ok_iff.1 h
  obtain ⟨columns, -, h⟩ := bind_ok_iff.1 h
  obtain ⟨key', -, h⟩ := bind_ok_iff.1 h
  cases h
  unfold Target.secondaryIndex at hindex
  unfold Target.isSecondary
  cases hname : plan.target.index with
  | none =>
    rw [hname] at hindex
    cases hindex
    rfl
  | some name =>
    rw [hname] at hindex
    dsimp only at hindex
    split at hindex <;> cases hindex
    rfl

theorem index_of_openIndexCursor {txn : τ} {index : Option Index} {here there : κ × σ} {cursor : Option κ}
    (h : openIndexCursor E txn index here = (.ok cursor, there)) : cursor.isSome = index.isSome := by
  obtain ⟨table, s⟩ := here
  unfold openIndexCursor at h
  cases index with
  | none =>
    cases h
    rfl
  | some index =>
    dsimp only at h
    split at h
    · cases h
    split at h <;> cases h
    rfl

theorem index_of_take {txn : τ} {write : Bool} {held : Holdings κ} {s s' : σ}
    (h : take E txn plan write s = (.ok held, s')) : held.cursors.index.isSome = plan.target.isSecondary := by
  rw [ScanParts.take_apply] at h
  split at h
  · cases h
  rename_i index key hplanned
  split at h
  · cases h
  split at h
  · cases h
  rename_i cursor table s₂ hopened
  split at h
  · cases h
  rename_i tuple cursors s₃ hstarted
  cases h
  have hindex := Cursors.index_onActive (start E plan key write) (⟨table, cursor⟩, s₂)
  rw [hstarted] at hindex
  exact hindex.trans ((index_of_openIndexCursor hopened).trans (index_of_planned hplanned))

theorem index_of_readAhead {held held' : Holdings κ} {row : Row} {s s' : σ}
    (h : readAhead E plan held s = (.ok (.running held' row), s')) :
    held'.cursors.index.isSome = held.cursors.index.isSome := by
  have hindex := Holdings.index_onActive (readOn E plan (E.entryBound (held.cursors.reader, s) + 1)) (held, s)
  rw [readAhead_apply] at h
  generalize Holdings.onActive (readOn E plan (E.entryBound (held.cursors.reader, s) + 1)) (held, s) = read at hindex h
  rcases read with ⟨e | _ | row, held, s⟩
  · cases h
  · dsimp only at h
    generalize held.close E s = closed at h
    rcases closed with ⟨e | _, s⟩ <;> cases h
  · cases h
    exact hindex

theorem furnished_open {txn : τ} {write : Bool} {scan : Scan κ} {s s' : σ}
    (h : Scan.open E txn plan write s = (.ok scan, s')) : scan.Furnished := by
  obtain ⟨held, s₀, progress, htake, hread, rfl⟩ := open_ok h
  intro held' row hprogress
  dsimp only at hprogress
  rw [hprogress] at hread
  rw [index_of_readAhead hread]
  exact index_of_take htake

theorem Furnished.next {scan : Scan κ} (h : scan.Furnished) (s : σ) : (Scan.next E (scan, s)).2.1.Furnished := by
  obtain ⟨plan, progress⟩ := scan
  intro held' row' hprogress
  cases progress with
  | closed => cases hprogress
  | running held row =>
    rw [next_plan]
    rw [next_running] at hprogress
    rcases hread : readAhead E plan held s with ⟨e | progress, s'⟩ <;> rw [hread] at hprogress
    · cases hprogress
    · dsimp only at hprogress
      rw [hprogress] at hread
      rw [index_of_readAhead hread]
      exact h held row rfl

theorem Furnished.of_closed {scan : Scan κ} (h : scan.progress = .closed) : scan.Furnished := by
  intro held row hrunning
  rw [h] at hrunning
  cases hrunning

end Scan

/-! ## The parts fit together -/

namespace ScanParts

theorem coherent_ofScan {scan : Scan κ} (h : scan.Furnished) : (ofScan scan).Coherent := by
  obtain ⟨plan, progress⟩ := scan
  cases progress with
  | closed =>
    refine ⟨.inr rfl, ⟨fun h => ?_, fun h => ?_⟩, ⟨fun h => ?_, fun h => ?_⟩, ⟨fun _ => ⟨rfl, rfl⟩, fun _ => rfl⟩⟩
    · cases h
    · cases h
    · cases h
    · cases h.1
  | running held row =>
    have hindex : held.cursors.index.isSome = plan.target.isSecondary := h held row rfl
    refine ⟨.inl rfl, ⟨fun _ => rfl, fun _ => rfl⟩, ⟨fun _ => ⟨rfl, ?_⟩, fun _ => rfl⟩, ⟨fun h => ?_, fun h => ?_⟩⟩
    · show some (held.cursors.index.toList ++ [held.cursors.table]).length =
        some (if plan.target.isSecondary then 2 else 1)
      rw [← hindex]
      cases held.cursors.index <;> rfl
    · cases h
    · cases h.1

end ScanParts

/-! ## Whatever becomes of a scan -/

/-- What becomes of a scan that has been opened: it is pulled or closed, its caller looks how far it is, or others work on
the rest of the state. -/
inductive Fate (ω : Type)
  | pull
  | close
  | look
  | meanwhile (others : ω → ω)

section

variable (E : Engine σ τ κ)

def Scan.undergo (here : Scan κ × σ) : Fate σ → Scan κ × σ
  | .pull => (next E here).2
  | .close => (close E here).2
  | .look => here
  | .meanwhile others => (here.1, others here.2)

def ScanParts.undergo (here : ScanParts κ × σ) : Fate σ → ScanParts κ × σ
  | .pull => (pull E here).2
  | .close => (close E here).2
  | .look => here
  | .meanwhile others => (here.1, others here.2)

end

namespace ScanParts

variable {E : Engine σ τ κ}

/-- **Parts and scan go on side by side.** -/
theorem foldl_undergo : ∀ (fates : List (Fate σ)) {scan : Scan κ} {s : σ}, scan.Furnished →
    ∃ scan' s', fates.foldl (undergo E) (ofScan scan, s) = (ofScan scan', s') ∧
      fates.foldl (Scan.undergo E) (scan, s) = (scan', s') ∧ scan'.Furnished
  | [], scan, s, h => ⟨scan, s, rfl, rfl, h⟩
  | .pull :: fates, scan, s, h => by
    have hstep : undergo E (ofScan scan, s) .pull = (ofScan (Scan.next E (scan, s)).2.1, (Scan.next E (scan, s)).2.2) :=
      congrArg Prod.snd (pull_ofScan scan s)
    rw [List.foldl_cons, List.foldl_cons, hstep]
    exact foldl_undergo fates (h.next s)
  | .close :: fates, scan, s, h => by
    have hstep : undergo E (ofScan scan, s) .close = (ofScan (Scan.close E (scan, s)).2.1, (Scan.close E (scan, s)).2.2) :=
      congrArg Prod.snd (close_ofScan scan s)
    rw [List.foldl_cons, List.foldl_cons, hstep]
    exact foldl_undergo fates (.of_closed (Scan.closed_of_close (scan, s)))
  | .look :: fates, scan, s, h => foldl_undergo fates h
  | .meanwhile others :: fates, scan, s, h => foldl_undergo fates h

/-- How the parts of a scan answer: closed they have nothing more to hand out, can be closed again, and stay as they are,
whatever becomes of the scan; iterating they hand out a row, or they fail and are closed. -/
structure Obeys (E : Engine σ τ κ) (here : ScanParts κ × σ) : Prop where
  closed : here.1.phase = .closed → ∀ fates : List (Fate σ), ∃ s', fates.foldl (undergo E) here = (here.1, s') ∧
    pull E (here.1, s') = (.ok none, (here.1, s')) ∧ close E (here.1, s') = (.ok (), (here.1, s'))
  iterating : here.1.phase = .iterating → (∃ row there, pull E here = (.ok (some row), there)) ∨
    ∃ e there, pull E here = (.error (.failed e), there) ∧ there.1.phase = .closed

theorem progress_of_phase {scan : Scan κ} (h : (ofScan scan).phase = .closed) : scan.progress = .closed := by
  obtain ⟨plan, progress⟩ := scan
  cases progress with
  | closed => rfl
  | running held row => cases h

theorem pull_closed {scan : Scan κ} (h : scan.progress = .closed) (s : σ) :
    pull E (ofScan scan, s) = (.ok none, (ofScan scan, s)) := by
  rw [pull_ofScan, Scan.next_of_closed h]
  rfl

theorem close_closed {scan : Scan κ} (h : scan.progress = .closed) (s : σ) :
    close E (ofScan scan, s) = (.ok (), (ofScan scan, s)) := by
  rw [close_ofScan, Scan.close_of_closed h]
  rfl

theorem foldl_undergo_closed {scan : Scan κ} (h : scan.progress = .closed) : ∀ (fates : List (Fate σ)) (s : σ),
    ∃ s', fates.foldl (undergo E) (ofScan scan, s) = (ofScan scan, s')
  | [], s => ⟨s, rfl⟩
  | .pull :: fates, s => by
    have hstep : undergo E (ofScan scan, s) .pull = (ofScan scan, s) := congrArg Prod.snd (pull_closed h s)
    rw [List.foldl_cons, hstep]
    exact foldl_undergo_closed h fates s
  | .close :: fates, s => by
    have hstep : undergo E (ofScan scan, s) .close = (ofScan scan, s) := congrArg Prod.snd (close_closed h s)
    rw [List.foldl_cons, hstep]
    exact foldl_undergo_closed h fates s
  | .look :: fates, s => foldl_undergo_closed h fates s
  | .meanwhile others :: fates, s => foldl_undergo_closed h fates (others s)

theorem obeys_ofScan (scan : Scan κ) (s : σ) : Obeys E (ofScan scan, s) where
  closed hphase fates := by
    have hclosed := progress_of_phase hphase
    obtain ⟨s', hfates⟩ := foldl_undergo_closed hclosed fates s
    exact ⟨s', hfates, pull_closed hclosed s', close_closed hclosed s'⟩
  iterating hphase := by
    rw [pull_ofScan]
    rcases hnext : Scan.next E (scan, s) with ⟨e | _ | row, there⟩
    · have hclosed := Scan.closed_of_next_error hnext
      refine .inr ⟨e, _, rfl, ?_⟩
      unfold ofScan
      dsimp only
      rw [hclosed]
    · obtain ⟨rfl, hclosed⟩ := Scan.closed_of_next_none hnext
      unfold ofScan at hphase
      dsimp only at hphase hclosed
      rw [hclosed] at hphase
      cases hphase
    · exact .inl ⟨row, _, rfl⟩

end ScanParts

/-! ## Traversals -/

/-- A scan in parts whose rows are visited, and whether that is over. -/
structure Traversal (κ : Type) where
  parts : ScanParts κ
  done : Bool

namespace Traversal

section

variable (E : Engine σ τ κ) (visit : Row → Action (ρ × σ) β)

/-- Visits the next row, unless the traversal is over; it is over with the last row, and with any error. -/
def next : Attempt Lapse (ρ × Traversal κ × σ) (Option β) := fun (notes, traversal, s) =>
  if traversal.done then (.ok none, (notes, traversal, s))
  else
    match ScanParts.pull E (traversal.parts, s) with
    | (.error e, (parts, s)) => (.error e, (notes, ⟨parts, true⟩, s))
    | (.ok none, (parts, s)) => (.ok none, (notes, ⟨parts, true⟩, s))
    | (.ok (some row), (parts, s)) =>
      match visit row (notes, s) with
      | (.ok b, (notes, s)) => (.ok (some b), (notes, ⟨parts, traversal.done⟩, s))
      | (.error e, (notes, s)) =>
        let (parts, s) := Attempt.quietly (ScanParts.close E) (parts, s)
        (.error (.failed e), (notes, ⟨parts, true⟩, s))

/-- Ends the traversal before its end. -/
def close : Attempt Lapse (ρ × Traversal κ × σ) Unit := fun (notes, traversal, s) =>
  let (r, (parts, s)) := ScanParts.close E (traversal.parts, s)
  (r, (notes, ⟨parts, true⟩, s))

def undergo (here : ρ × Traversal κ × σ) : Fate (ρ × σ) → ρ × Traversal κ × σ
  | .pull => (next E visit here).2
  | .close => (close E here).2
  | .look => here
  | .meanwhile others => ((others (here.1, here.2.2)).1, here.2.1, (others (here.1, here.2.2)).2)

/-- There is nothing more to come, whatever becomes of the traversal. -/
def Ended (here : ρ × Traversal κ × σ) : Prop := ∀ fates : List (Fate (ρ × σ)),
  next E visit (fates.foldl (undergo E visit) here) = (.ok none, fates.foldl (undergo E visit) here)

end

variable {E : Engine σ τ κ} {visit : Row → Action (ρ × σ) β}

theorem next_of_done {here : ρ × Traversal κ × σ} (h : here.2.1.done = true) : next E visit here = (.ok none, here) := by
  obtain ⟨notes, traversal, s⟩ := here
  exact if_pos h

theorem done_undergo {here : ρ × Traversal κ × σ} (h : here.2.1.done = true) (fate : Fate (ρ × σ)) :
    (undergo E visit here fate).2.1.done = true := by
  cases fate with
  | pull =>
    show (next E visit here).2.2.1.done = true
    rw [next_of_done h]
    exact h
  | close => rfl
  | look => exact h
  | meanwhile others => exact h

theorem ended_of_done {here : ρ × Traversal κ × σ} (h : here.2.1.done = true) : Ended E visit here := by
  intro fates
  induction fates generalizing here with
  | nil => exact next_of_done h
  | cons fate fates ih => exact ih (done_undergo h fate)

/-- **The end of the rows is the end, and so is an error.** -/
theorem ended_next {here : ρ × Traversal κ × σ}
    (h : (next E visit here).1 = .ok none ∨ ∃ e, (next E visit here).1 = .error e) :
    Ended E visit (next E visit here).2 := by
  refine ended_of_done ?_
  obtain ⟨notes, traversal, s⟩ := here
  revert h
  unfold next
  dsimp only
  split
  · rename_i hdone
    exact fun _ => hdone
  rcases ScanParts.pull E (traversal.parts, s) with ⟨e | _ | row, parts, s⟩
  · exact fun _ => rfl
  · exact fun _ => rfl
  dsimp only
  rcases visit row (notes, s) with ⟨e | b, notes, s⟩
  · exact fun _ => rfl
  · rintro (h | ⟨e, h⟩) <;> cases h

end Traversal

/-! ## Traversals and visits -/

def Scan.undergoVisiting (E : Engine σ τ κ) (visit : Row → Action (ρ × σ) β) (here : ρ × Scan κ × σ) :
    Fate (ρ × σ) → ρ × Scan κ × σ
  | .pull => (visitNext E visit here).2
  | .close => (here.1, (close E here.2).2)
  | .look => here
  | .meanwhile others => ((others (here.1, here.2.2)).1, here.2.1, (others (here.1, here.2.2)).2)

namespace Traversal

variable {E : Engine σ τ κ} {visit : Row → Action (ρ × σ) β}

/-- A traversal has the parts of a scan, and is over only if the scan is closed. -/
inductive Follows : ρ × Traversal κ × σ → ρ × Scan κ × σ → Prop
  | intro {notes : ρ} {scan : Scan κ} {done : Bool} {s : σ} : (done = true → scan.progress = .closed) →
    Follows (notes, ⟨.ofScan scan, done⟩, s) (notes, scan, s)

/-- **A traversal answers what a visit of the scan answers.** -/
theorem Follows.next {here : ρ × Traversal κ × σ} {there : ρ × Scan κ × σ} (h : Follows here there) :
    (next E visit here).1 = (Scan.visitNext E visit there).1.mapError .failed ∧
      Follows (next E visit here).2 (Scan.visitNext E visit there).2 := by
  obtain @⟨notes, scan, done, s, hclosed⟩ := h
  cases done with
  | true =>
    rw [next_of_done rfl, Scan.visitNext_of_closed (hclosed rfl)]
    exact ⟨rfl, .intro hclosed⟩
  | false =>
    unfold Traversal.next Scan.visitNext
    dsimp only
    rw [if_neg Bool.false_ne_true, ScanParts.pull_ofScan]
    rcases hnext : Scan.next E (scan, s) with ⟨e | _ | row, scan', s'⟩
    · exact ⟨rfl, .intro fun _ => Scan.closed_of_next_error hnext⟩
    · exact ⟨rfl, .intro fun _ => (Scan.closed_of_next_none hnext).2⟩
    dsimp only [Except.mapError]
    rcases visit row (notes, s') with ⟨e | b, notes', s''⟩
    · have hclosed := Scan.closed_of_close (E := E) (scan', s'')
      dsimp only [Attempt.quietly]
      rw [ScanParts.close_ofScan]
      exact ⟨rfl, .intro fun _ => hclosed⟩
    · exact ⟨rfl, .intro fun h => by cases h⟩

theorem Follows.undergo {here : ρ × Traversal κ × σ} {there : ρ × Scan κ × σ} (h : Follows here there)
    (fate : Fate (ρ × σ)) : Follows (undergo E visit here fate) (Scan.undergoVisiting E visit there fate) := by
  cases fate with
  | pull => exact h.next.2
  | close =>
    obtain @⟨notes, scan, done, s, hclosed⟩ := h
    have hclosed := Scan.closed_of_close (E := E) (scan, s)
    unfold Traversal.undergo Traversal.close Scan.undergoVisiting
    dsimp only
    rw [ScanParts.close_ofScan]
    exact .intro fun _ => hclosed
  | look => exact h
  | meanwhile others =>
    obtain @⟨notes, scan, done, s, hclosed⟩ := h
    exact .intro hclosed

theorem Follows.foldl_undergo : ∀ (fates : List (Fate (ρ × σ))) {here : ρ × Traversal κ × σ} {there : ρ × Scan κ × σ},
    Follows here there →
      Follows (fates.foldl (Traversal.undergo E visit) here) (fates.foldl (Scan.undergoVisiting E visit) there)
  | [], _, _, h => h
  | fate :: fates, _, _, h => foldl_undergo fates (h.undergo fate)

end Traversal

theorem ScanParts.hasNext_ofScan (scan : Scan κ) : (ofScan scan).hasNext = scan.hasNext := by
  obtain ⟨plan, progress⟩ := scan
  cases progress <;> rfl

theorem ScanParts.iterating_ofScan (scan : Scan κ) : (ofScan scan).phase = .iterating ↔ scan.state = .iterating := by
  obtain ⟨plan, progress⟩ := scan
  cases progress with
  | closed =>
    constructor
    · intro h
      cases h
    · intro h
      cases h
  | running held row => exact ⟨fun _ => rfl, fun _ => rfl⟩

/-- **A scan is iterating and owns all that it needs, or it is closed and owns nothing.**  A scan of parts that change one
by one opens as the scan does, and whatever becomes of the two they go on side by side, over any engine and with any
failures.  The parts fit together at any time that a caller sees them.  Closed they stay so, without a row to hand out
and without an error; iterating they hand out a row, or fail and are closed.  A traversal answers what visiting the
scan's rows answers, be it a mapping or the mutations of a sweep, and once it has answered nothing or an error or has
been closed it has nothing more to answer. -/
theorem scan_states_hold {E : Engine σ τ κ} {txn : τ} {plan : Plan} {write : Bool} {s s₁ : σ} {scan : Scan κ}
    (hopen : Scan.open E txn plan write s = (.ok scan, s₁)) :
    ScanParts.open E txn plan write s = (.ok (.ofScan scan), s₁) ∧
      (∀ fates : List (Fate σ), ∃ scan' s',
        fates.foldl (ScanParts.undergo E) (.ofScan scan, s₁) = (.ofScan scan', s') ∧
          fates.foldl (Scan.undergo E) (scan, s₁) = (scan', s') ∧
          (ScanParts.ofScan scan').hasNext = scan'.hasNext ∧
          ((ScanParts.ofScan scan').phase = .iterating ↔ scan'.state = .iterating) ∧
          (ScanParts.ofScan scan').Coherent ∧ ScanParts.Obeys E (.ofScan scan', s')) ∧
      (∀ {ρ β : Type} (visit : Row → Action (ρ × σ) β) (notes : ρ) (fates : List (Fate (ρ × σ))),
        let here := fates.foldl (Traversal.undergo E visit) (notes, ⟨.ofScan scan, false⟩, s₁)
        let there := fates.foldl (Scan.undergoVisiting E visit) (notes, scan, s₁)
        (Traversal.next E visit here).1 = (Scan.visitNext E visit there).1.mapError .failed ∧
          ((Traversal.next E visit here).1 = .ok none ∨ (∃ e, (Traversal.next E visit here).1 = .error e) →
            Traversal.Ended E visit (Traversal.next E visit here).2) ∧
          Traversal.Ended E visit (Traversal.close E here).2) ∧
      (∀ {ρ β : Type} (f : Row → ρ → β × ρ), Scan.nextMapped E f = Scan.visitNext E (Scan.mapping f)) ∧
      ∀ {ρ : Type} (decide : Row → ρ → Mutation × ρ) (here : ρ × Scan κ × σ), Sweep.next E txn decide here =
        Scan.visitNext E (Scan.mutating E txn here.2.1.plan.target.schema decide) here := by
  refine ⟨?_, fun fates => ?_, fun visit notes fates => ⟨?_, Traversal.ended_next, Traversal.ended_of_done rfl⟩,
    Scan.nextMapped_eq, fun decide here => Sweep.next_eq here⟩
  · rw [ScanParts.open_eq, hopen]
    rfl
  · obtain ⟨scan', s', hparts, hscan, hfurnished⟩ := ScanParts.foldl_undergo fates (Scan.furnished_open hopen)
    exact ⟨scan', s', hparts, hscan, ScanParts.hasNext_ofScan scan', ScanParts.iterating_ofScan scan',
      ScanParts.coherent_ofScan hfurnished, ScanParts.obeys_ofScan scan' s'⟩
  · exact (Traversal.Follows.foldl_undergo fates (.intro fun h => by cases h)).next.1

namespace Memory.Database

theorem phases_addresses : (match Scan.open engine ⟨1, .readCommitted⟩ byNumber false (run addressCalls) with
    | (.ok scan, db) => some ((ScanParts.ofScan scan).phase,
        ([Fate.pull, .look, .pull].foldl (ScanParts.undergo engine) (.ofScan scan, db)).1.phase)
    | (.error _, _) => none) = some (.iterating, .closed) := by cbv

/-- People are read with addresses for numbers: the scan opens and owns its tuple and one cursor, the second pull fails,
and the scan then owns nothing. -/
theorem scan_states_hold_addresses :
    ∃ scan db, Scan.open engine ⟨1, .readCommitted⟩ byNumber false (run addressCalls) = (.ok scan, db) ∧
      (ScanParts.ofScan scan).OwnsAll ∧
      ∃ closed db', [Fate.pull, .look, .pull].foldl (ScanParts.undergo engine) (.ofScan scan, db) = (closed, db') ∧
        closed.phase = .closed ∧ closed.tuple = none ∧ closed.cursors = none ∧
          ScanParts.pull engine (closed, db') = (.ok none, (closed, db')) := by
  have hphases := phases_addresses
  rcases hopen : Scan.open engine ⟨1, .readCommitted⟩ byNumber false (run addressCalls) with ⟨e | scan, db⟩ <;>
    rw [hopen] at hphases
  · cases hphases
  obtain ⟨hopened, hended⟩ := Prod.mk.inj (Option.some.inj hphases)
  obtain ⟨-, hfates, -⟩ := scan_states_hold hopen
  obtain ⟨_, _, hnow, -, -, -, hcoherent, -⟩ := hfates []
  obtain ⟨closed, db', hthen, -, -, -, hcoherent', hobeys⟩ := hfates [.pull, .look, .pull]
  obtain ⟨hscan, -⟩ := Prod.mk.inj hnow
  rw [← hscan] at hcoherent
  rw [hthen] at hended
  obtain ⟨htuple, hcursors⟩ := hcoherent'.closed_iff.1 hended
  obtain ⟨_, hstays, hpull, -⟩ := hobeys.closed hended []
  cases hstays
  exact ⟨scan, db, rfl, hcoherent.owns_iff.1 hopened, _, db', hthen, hended, htuple, hcursors, hpull⟩

end Memory.Database
end RowStore

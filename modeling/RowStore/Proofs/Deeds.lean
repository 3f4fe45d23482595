import RowStore.Proofs.TupleSteps

/-!
# What is asked of an engine

A computation on an engine is followed by the calls that it makes, each with its failure if it failed (`Deed`).  A watch
(`Watch`) says what holds of the engine's state once certain calls have been made, while certain cursors and so many live
tuples are at hand; an engine is watched (`Engine.Watched`) if each of its calls leads from such states to such states.
What a computation tells (`Attempt.Tells`) is then put together from what its parts tell.
-/
namespace RowStore

open Attempt

/-! ## Deeds -/

/-- What is asked of a cursor. -/
inductive Ask
  | setLockMode (mode : LockMode)
  | lock (mode : LockMode)
  | setClusterAccess
  | searchTuple
  | readTuple
  | search
  | readRow
  | insertRow
  | updateRow
  | deleteRow
  | advance
  | close
  deriving DecidableEq

namespace Ask

def Writes : Ask → Prop
  | insertRow | updateRow | deleteRow => True
  | _ => False

/-- What is asked of a cursor between locking and closing it, with or without writes. -/
def Works (write : Bool) : Ask → Prop
  | setLockMode _ | lock _ | close => False
  | insertRow | updateRow | deleteRow => write = true
  | _ => True

theorem Works.mono {write : Bool} : ∀ {call : Ask}, call.Works false → call.Works write
  | setLockMode _, h | lock _, h | close, h => h.elim
  | insertRow, h | updateRow, h | deleteRow, h => absurd h Bool.false_ne_true
  | setClusterAccess, _ | searchTuple, _ | readTuple, _ | search, _ | readRow, _ | advance, _ => True.intro

theorem Works.not_writes : ∀ {call : Ask}, call.Works false → ¬call.Writes
  | insertRow, h, _ | updateRow, h, _ | deleteRow, h, _ => absurd h Bool.false_ne_true

end Ask

/-- A call on an engine, and what became of it.  Cursors go by their names. -/
inductive Deed (ι : Type)
  | openTable (table : String) (opened : Except Error ι)
  | openIndex (opened : Except Error ι)
  | ask (cursor : ι) (call : Ask) (failure : Option Error)
  | tupleReleased
  | letGo (cursor : ι)

variable {ι σ τ κ α β : Type}

/-- The error of a result, if it is one. -/
def failure? : Except Error α → Option Error
  | .ok _ => none
  | .error e => some e

namespace Deed

def failure? : Deed ι → Option Error
  | openTable _ opened | openIndex opened => RowStore.failure? opened
  | ask _ _ failure => failure
  | tupleReleased | letGo _ => none

/-- A write that has succeeded. -/
def Wrote : Deed ι → Prop
  | ask _ call none => call.Writes
  | _ => False

/-- Nothing but a release. -/
def Releases : Deed ι → Prop
  | ask _ .close _ | tupleReleased | letGo _ => True
  | _ => False

/-- Work on one cursor between locking and closing it. -/
def WorksOn (cursor : ι) (write : Bool) : Deed ι → Prop
  | ask other call _ => other = cursor ∧ call.Works write
  | tupleReleased => True
  | _ => False

theorem WorksOn.mono {cursor : ι} {write : Bool} : ∀ {d : Deed ι}, d.WorksOn cursor false → d.WorksOn cursor write
  | ask .., h => ⟨h.1, h.2.mono⟩
  | tupleReleased, _ => True.intro

theorem WorksOn.not_wrote {cursor : ι} : ∀ {d : Deed ι}, d.WorksOn cursor false → ¬d.Wrote
  | ask _ _ none, h, hwrote => h.2.not_writes hwrote

end Deed

/-! ## The first failure -/

/-- The error of the first of some calls that failed. -/
def firstFailure (told : List (Deed ι)) : Option Error := told.findSome? Deed.failure?

theorem firstFailure_append (told more : List (Deed ι)) :
    firstFailure (told ++ more) = (firstFailure told).or (firstFailure more) := List.findSome?_append

/-- **A result is explained by the first thing that went wrong.**  If it is an answer then no call failed.  If it is an
error then it is that of the first call that failed, or it was found while no call had failed and only releases came
behind it. -/
def FirstError (r : Except Error α) (told : List (Deed ι)) : Prop :=
  match r with
  | .ok _ => firstFailure told = none
  | .error e => firstFailure told = some e ∨
      ∃ work releases, told = work ++ releases ∧ firstFailure work = none ∧ ∀ d ∈ releases, d.Releases

/-- The result of some work is not changed by what its releases end with, unless it is an answer. -/
def conclude (r : Except Error α) (closed : Option Error) : Except Error α :=
  match r, closed with
  | .ok _, some e => .error e
  | r, _ => r

/-- A result that is the error of the first call that failed, or that was found without any. -/
def Explains (r : Except Error α) (told : List (Deed ι)) : Prop := ∀ e, firstFailure told = some e → r = .error e

variable {r : Except Error α}

theorem Explains.error {e : Error} {told : List (Deed ι)} (h : Explains (.error e : Except Error α) told) :
    Explains (.error e : Except Error β) told := fun e' he => by
  cases h e' he
  rfl

theorem Explains.ok {a : α} {told : List (Deed ι)} (h : Explains (.ok a) told) : firstFailure told = none := by
  cases hfirst : firstFailure told with
  | none => rfl
  | some e => cases h e hfirst

theorem Explains.after {told more : List (Deed ι)} (h : firstFailure told = none) (hmore : Explains r more) :
    Explains r (told ++ more) := fun e he => by
  rw [firstFailure_append, h, Option.none_or] at he
  exact hmore e he

theorem Explains.append {a : β} {told more : List (Deed ι)} (h : Explains (.ok a) told) (hmore : Explains r more) :
    Explains r (told ++ more) := .after h.ok hmore

/-- **An error behind which there are only releases is the first error.** -/
theorem FirstError.of_releases {told releases : List (Deed ι)} (h : Explains r told)
    (hreleases : ∀ d ∈ releases, d.Releases) :
    FirstError (conclude r (firstFailure releases)) (told ++ releases) := by
  cases r with
  | ok a =>
    cases hfirst : firstFailure releases with
    | none => exact (firstFailure_append told releases).trans (by rw [h.ok, hfirst]; rfl)
    | some e => exact .inl ((firstFailure_append told releases).trans (by rw [h.ok, hfirst]; rfl))
  | error e =>
    cases hfirst : firstFailure told with
    | none => exact .inr ⟨told, releases, rfl, hfirst, hreleases⟩
    | some e' =>
      cases h e' hfirst
      exact .inl ((firstFailure_append told releases).trans (by rw [hfirst]; rfl))

/-- Calls that have gone well leave the first error to what comes after them. -/
theorem FirstError.after {a : β} {told more : List (Deed ι)} (h : FirstError (.ok a) told) (hmore : FirstError r more) :
    FirstError r (told ++ more) := by
  have hnone : firstFailure told = none := h
  have hfirst : firstFailure (told ++ more) = firstFailure more := by rw [firstFailure_append, hnone, Option.none_or]
  cases r with
  | ok a => exact hfirst.trans hmore
  | error e =>
    obtain hmore | ⟨work, releases, rfl, hwork, hreleases⟩ := hmore
    · exact .inl (hfirst.trans hmore)
    · refine .inr ⟨told ++ work, releases, (List.append_assoc ..).symm, ?_, hreleases⟩
      rw [firstFailure_append, hnone, hwork]
      rfl

theorem FirstError.releases {e : Error} {told releases : List (Deed ι)} (h : FirstError (.error e : Except Error α) told)
    (hreleases : ∀ d ∈ releases, d.Releases) : FirstError (.error e : Except Error α) (told ++ releases) := by
  obtain h | ⟨work, before, rfl, hwork, hbefore⟩ := h
  · exact .inl (by rw [firstFailure_append, h, Option.some_or])
  · refine .inr ⟨work, before ++ releases, List.append_assoc .., hwork, fun d hd => ?_⟩
    exact (List.mem_append.1 hd).elim (hbefore d) (hreleases d)

/-! ## What a computation tells -/

/-- From a state that goes with the calls made so far, a computation makes some more that explain how it ends, and leaves a
state that goes with all of them. -/
def Attempt.Tells (P : List (Deed ι) → σ → Prop) (m : Action σ α) (Q : Except Error α → List (Deed ι) → Prop)
    (P' : Except Error α → List (Deed ι) → σ → Prop := fun _ => P) : Prop :=
  ∀ made s, P made s → ∃ told, Q (m s).1 told ∧ P' (m s).1 (made ++ told) (m s).2

namespace Attempt.Tells

variable {P P₁ P' : List (Deed ι) → σ → Prop} {m : Action σ α} {Q : Except Error α → List (Deed ι) → Prop}

theorem mono {R R' : Except Error α → List (Deed ι) → σ → Prop} {Q' : Except Error α → List (Deed ι) → Prop}
    (h : Tells P m Q R) (hQ : ∀ r told, Q r told → Q' r told) (hR : ∀ r made s, R r made s → R' r made s) :
    Tells P m Q' R' := by
  intro made s hs
  obtain ⟨told, hq, hr⟩ := h made s hs
  exact ⟨told, hQ _ _ hq, hR _ _ _ hr⟩

theorem weaken {R : Except Error α → List (Deed ι) → σ → Prop} {Q' : Except Error α → List (Deed ι) → Prop}
    (h : Tells P m Q R) (hQ : ∀ r told, Q r told → Q' r told) : Tells P m Q' R := h.mono hQ fun _ _ _ hr => hr

theorem of_silent {R : Except Error α → List (Deed ι) → σ → Prop} (hQ : ∀ made s, P made s → Q (m s).1 [])
    (hR : ∀ made s, P made s → R (m s).1 made (m s).2) : Tells P m Q R := by
  intro made s hs
  refine ⟨[], hQ made s hs, ?_⟩
  rw [List.append_nil]
  exact hR made s hs

theorem pure {a : α} (hQ : Q (.ok a) []) : Tells P (pure a : Action σ α) Q := of_silent (fun _ _ _ => hQ) fun _ _ hs => hs

/-- **What follows tells the rest.** -/
theorem bind {R : Except Error α → List (Deed ι) → σ → Prop} {R' : Except Error β → List (Deed ι) → σ → Prop}
    {Q' : Except Error β → List (Deed ι) → Prop} {f : α → Action σ β} (hm : Tells P m Q R)
    (hf : ∀ a told, Q (.ok a) told → Tells (R (.ok a)) (f a) (fun r more => Q' r (told ++ more)) R')
    (hfail : ∀ e told, Q (.error e) told → Q' (.error e) told)
    (hR : ∀ e made s, R (.error e) made s → R' (.error e) made s) : Tells P (m >>= f) Q' R' := by
  intro made s hs
  obtain ⟨told, hq, hr⟩ := hm made s hs
  rw [bind_apply]
  rcases hms : m s with ⟨e | a, u⟩ <;> rw [hms] at hq hr
  · exact ⟨told, hfail e told hq, hR e _ u hr⟩
  · obtain ⟨more, hq', hr'⟩ := hf a told hq _ u hr
    refine ⟨told ++ more, hq', ?_⟩
    rw [← List.append_assoc]
    exact hr'

theorem ofExcept_bind {R' : Except Error β → List (Deed ι) → σ → Prop} {r : Except Error α} {f : α → Action σ β}
    {Q' : Except Error β → List (Deed ι) → Prop} (hf : ∀ a, r = .ok a → Tells P (f a) Q' R')
    (hfail : ∀ e, r = .error e → Q' (.error e) []) (hR : ∀ e made s, P made s → R' (.error e) made s) :
    Tells P (Attempt.ofExcept r >>= f) Q' R' := by
  cases r with
  | error e => exact of_silent (fun _ _ _ => hfail e rfl) fun _ _ hs => hR e _ _ hs
  | ok a => exact hf a rfl

theorem look_bind {R' : Except Error β → List (Deed ι) → σ → Prop} {f : α → Action σ β}
    {Q' : Except Error β → List (Deed ι) → Prop} (hm : ∀ s, ∃ a, m s = (.ok a, s)) (hf : ∀ a, Tells P (f a) Q' R') :
    Tells P (m >>= f) Q' R' := by
  intro made s hs
  obtain ⟨a, ha⟩ := hm s
  rw [bind_apply, ha]
  exact hf a made s hs

theorem state_bind {R' : Except Error β → List (Deed ι) → σ → Prop} {f : σ → Action σ β}
    {Q' : Except Error β → List (Deed ι) → Prop} (hf : ∀ s, Tells P (f s) Q' R') : Tells P (state >>= f) Q' R' :=
  look_bind (fun s => ⟨s, rfl⟩) hf

theorem held_bind {ρ : Type} {P : List (Deed ι) → ρ × σ → Prop} {R' : Except Error β → List (Deed ι) → ρ × σ → Prop}
    {f : ρ → Action (ρ × σ) β} {Q' : Except Error β → List (Deed ι) → Prop} (hf : ∀ x, Tells P (f x) Q' R') :
    Tells P (held >>= f) Q' R' := look_bind (fun s => ⟨s.1, rfl⟩) hf

end Attempt.Tells

/-! ## Watched engines -/

/-- What a tuple adds to the number of live tuples. -/
def Tuple.live (tuple : Tuple) : Nat := if tuple.disposed then 0 else 1

/-- What is known of the state of an engine. -/
structure Watch (σ κ ι : Type) where
  name : κ → ι
  /-- The state goes with the calls that were made, the cursors at hand and the number of live tuples at hand. -/
  holds : List (Deed ι) → List κ → Nat → σ → Prop

namespace Watch

variable (w : Watch σ κ ι) (cursors : List κ) (tuples : Nat) (i : ι)

/-- No cursor is at hand but those that others hold. -/
def idle (made : List (Deed ι)) (s : σ) : Prop := w.holds made cursors tuples s

/-- One more cursor is at hand if it could be opened. -/
def opened : Except Error κ → List (Deed ι) → σ → Prop
  | .ok c, made, s => w.holds made (c :: cursors) tuples s
  | .error _, made, s => w.holds made cursors tuples s

/-- A cursor of some name is at hand. -/
def atCursor (made : List (Deed ι)) (here : κ × σ) : Prop :=
  w.name here.1 = i ∧ w.holds made (here.1 :: cursors) tuples here.2

/-- A live tuple is at hand if it could be made. -/
def madeTuple : Except Error Tuple → List (Deed ι) → κ × σ → Prop
  | .ok tuple, made, here => tuple.disposed = false ∧ w.atCursor cursors (tuples + 1) i made here
  | .error _, made, here => w.atCursor cursors tuples i made here

/-- A live tuple and a cursor are at hand. -/
def atRow (made : List (Deed ι)) (here : Tuple × κ × σ) : Prop :=
  here.1.disposed = false ∧ w.atCursor cursors (tuples + 1) i made here.2

/-- A tuple, released or not, and a cursor are at hand. -/
def afterRow (made : List (Deed ι)) (here : Tuple × κ × σ) : Prop :=
  w.atCursor cursors (tuples + here.1.live) i made here.2

variable {w cursors tuples i}

theorem afterRow_of_atRow {made : List (Deed ι)} {here : Tuple × κ × σ} (h : w.atRow cursors tuples i made here) :
    w.afterRow cursors tuples i made here := by
  unfold afterRow Tuple.live
  rw [h.1]
  exact h.2

variable (w)

/-- A call on a cursor tells of itself. -/
def Asked (m : Action (κ × σ) α) (call : Ask) : Prop :=
  ∀ cursors tuples i, Tells (w.atCursor cursors tuples i) m fun r told => told = [.ask i call (failure? r)]

/-- So does a call on a tuple and a cursor. -/
def RowAsked (m : Action (Tuple × κ × σ) α) (call : Ask) : Prop :=
  ∀ cursors tuples i, Tells (w.atRow cursors tuples i) m fun r told => told = [.ask i call (failure? r)]

/-- So does a call that makes a tuple. -/
def Makes (m : Action (κ × σ) Tuple) (call : Ask) : Prop :=
  ∀ cursors tuples i, Tells (w.atCursor cursors tuples i) m (fun r told => told = [.ask i call (failure? r)])
    (w.madeTuple cursors tuples i)

end Watch

/-- **An engine is watched while it works for a transaction**: each of its calls tells of itself and keeps what is known. -/
structure Engine.Watched (E : Engine σ τ κ) (w : Watch σ κ ι) (txn : τ) : Prop where
  perm : ∀ {made cursors cursors' tuples s}, cursors.Perm cursors' → w.holds made cursors tuples s →
    w.holds made cursors' tuples s
  openTable : ∀ schema cursors tuples, Tells (w.idle cursors tuples) (E.openTable txn schema)
    (fun r told => told = [.openTable schema.name (r.map w.name)]) (w.opened cursors tuples)
  openIndex : ∀ table index cursors tuples, Tells (w.idle cursors tuples) (E.openIndex txn table index)
    (fun r told => told = [.openIndex (r.map w.name)]) (w.opened cursors tuples)
  setLockMode : ∀ mode, w.Asked (E.setLockMode mode) (.setLockMode mode)
  lock : ∀ mode, w.Asked (E.lock mode) (.lock mode)
  setClusterAccess : w.Asked E.setClusterAccess .setClusterAccess
  searchTuple : ∀ key, w.Makes (E.searchTuple key) .searchTuple
  readTuple : w.Makes E.readTuple .readTuple
  search : ∀ tuple mode, w.Asked (E.search tuple mode) .search
  readRow : w.RowAsked E.readRow .readRow
  insertRow : ∀ cells, w.RowAsked (E.insertRow cells) .insertRow
  updateRow : ∀ cells, w.RowAsked (E.updateRow cells) .updateRow
  deleteRow : w.Asked E.deleteRow .deleteRow
  advance : ∀ direction, w.Asked (E.advance direction) .advance
  close : w.Asked E.close .close
  tupleReleased : ∀ {made cursors tuples s}, w.holds made cursors (tuples + 1) s →
    w.holds (made ++ [.tupleReleased]) cursors tuples (E.tupleReleased s)
  letGo : ∀ {made c cursors tuples s}, w.holds made (c :: cursors) tuples s →
    w.holds (made ++ [.letGo (w.name c)]) cursors tuples (E.letGoCursor c s)

end RowStore

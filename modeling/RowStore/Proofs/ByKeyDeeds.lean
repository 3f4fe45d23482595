import RowStore.Proofs.Deeds
import RowStore.Proofs.Ends
import RowStore.Proofs.FiniteMap

/-!
# What a request asks of an engine

A request opens one cursor, locks it if it may write, works on it, and closes and lets go of it, whatever happens in
between (`Single`).  The work ends with the first error, and has written nothing if it ends with one (`Worked`).  This is
shown for every watched engine, one call after the other (`Engine.Watched.perform`).
-/
namespace RowStore

open Attempt

variable {ι σ τ κ α β : Type} {i : ι} {write : Bool} {told more : List (Deed ι)} {r : Except Error α}

/-! ## Work on one cursor -/

/-- Calls between locking and closing a cursor, and how they end. -/
structure Worked (i : ι) (write : Bool) (r : Except Error α) (told : List (Deed ι)) : Prop where
  works : ∀ d ∈ told, d.WorksOn i write
  explains : Explains r told
  unwritten : ∀ e, r = .error e → ∀ d ∈ told, ¬d.Wrote

namespace Worked

theorem silent (r : Except Error α) : Worked i write r [] :=
  ⟨fun _ hd => (by cases hd), fun _ he => (by cases he), fun _ _ _ hd => (by cases hd)⟩

theorem ask (call : Ask) (hcall : call.Works write) (h : told = [.ask i call (failure? r)]) : Worked i write r told := by
  subst h
  refine ⟨fun d hd => ?_, fun e he => ?_, fun e hr d hd => ?_⟩
  · rw [List.mem_singleton.1 hd]
    exact ⟨rfl, hcall⟩
  · cases r with
    | ok a => cases he
    | error e' =>
      cases he
      rfl
  · rw [List.mem_singleton.1 hd, hr]
    exact fun hwrote => hwrote.elim

theorem error {e : Error} (h : Worked i write (.error e : Except Error α) told) :
    Worked i write (.error e : Except Error β) told := ⟨h.works, h.explains.error, fun _ _ => h.unwritten e rfl⟩

theorem map (h : Worked i write r told) (f : α → β) : Worked i write (r.map f) told := by
  cases r with
  | error e => exact h.error
  | ok a =>
    refine ⟨h.works, fun e he => ?_, fun e hr => by cases hr⟩
    cases h.explains e he

theorem not_wrote (h : Worked i false r told) : ∀ d ∈ told, ¬d.Wrote := fun d hd => (h.works d hd).not_wrote

theorem mono (h : Worked i false r told) : Worked i write r told :=
  ⟨fun d hd => (h.works d hd).mono, h.explains, fun _ _ => h.not_wrote⟩

/-- Work that has written nothing goes on. -/
theorem append {a : α} {r : Except Error β} (h : Worked i write (.ok a) told) (hwrote : ∀ d ∈ told, ¬d.Wrote)
    (hmore : Worked i write r more) : Worked i write r (told ++ more) := by
  refine ⟨fun d hd => ?_, h.explains.append hmore.explains, fun e hr d hd => ?_⟩
  · exact (List.mem_append.1 hd).elim (h.works d) (hmore.works d)
  · exact (List.mem_append.1 hd).elim (hwrote d) (hmore.unwritten e hr d)

/-- Releasing tuples behind the work changes nothing of it. -/
theorem released {releases : List (Deed ι)} (h : Worked i write r told) (hreleases : ∀ d ∈ releases, d = .tupleReleased) :
    Worked i write r (told ++ releases) := by
  have hnone : firstFailure releases = none := List.findSome?_eq_none_iff.2 fun d hd => by rw [hreleases d hd]; rfl
  refine ⟨fun d hd => ?_, fun e he => ?_, fun e hr d hd => ?_⟩
  · rcases List.mem_append.1 hd with hd | hd
    · exact h.works d hd
    · rw [hreleases d hd]
      exact True.intro
  · rw [firstFailure_append, hnone, Option.or_none] at he
    exact h.explains e he
  · rcases List.mem_append.1 hd with hd | hd
    · exact h.unwritten e hr d hd
    · rw [hreleases d hd]
      exact fun hwrote => hwrote

end Worked

/-- Work that answers nothing has only looked. -/
def Searched (i : ι) (write : Bool) (r : Except Error (Option α)) (told : List (Deed ι)) : Prop :=
  Worked i write r told ∧ (r = .ok none → ∀ d ∈ told, ¬d.Wrote)

/-- Whether a request may write. -/
def Memory.Request.writes : Memory.Request → Bool
  | .load _ => false
  | _ => true

/-- Calls on a cursor that is locked first if there may be writes. -/
inductive Guarded (i : ι) (Q : Except Error α → List (Deed ι) → Prop) : Bool → Except Error α → List (Deed ι) → Prop
  | free {r : Except Error α} {told : List (Deed ι)} : Q r told → Guarded i Q false r told
  | unannounced (e : Error) : Guarded i Q true (.error e) [.ask i (.setLockMode .intentionExclusive) (some e)]
  | unlocked (e : Error) : Guarded i Q true (.error e)
    [.ask i (.setLockMode .intentionExclusive) none, .ask i (.lock .exclusive) (some e)]
  | locked {r : Except Error α} {told : List (Deed ι)} : Q r told →
    Guarded i Q true r (.ask i (.setLockMode .intentionExclusive) none :: .ask i (.lock .exclusive) none :: told)

theorem Guarded.map {Q : Except Error α → List (Deed ι) → Prop} {Q' : Except Error β → List (Deed ι) → Prop} {f : α → β}
    (h : Guarded i Q write r told) (hQ : ∀ r told, Q r told → Q' (r.map f) told) : Guarded i Q' write (r.map f) told := by
  cases h with
  | free hq => exact .free (hQ _ _ hq)
  | unannounced e => exact .unannounced e
  | unlocked e => exact .unlocked e
  | locked hq => exact .locked (hQ _ _ hq)

theorem Guarded.explains {write' : Bool} (h : Guarded i (Worked i write') write r told) : Explains r told := by
  cases h with
  | free hwork => exact hwork.explains
  | unannounced e => exact fun _ he => congrArg Except.error (Option.some.inj he)
  | unlocked e => exact fun _ he => congrArg Except.error (Option.some.inj he)
  | locked hwork => exact .after (show firstFailure [_, _] = none from rfl) hwork.explains

/-- **One cursor is opened, worked on, closed and let go of.** -/
inductive Single (table : String) (write : Bool) : Except Error α → List (Deed ι) → Prop
  | unopened (e : Error) : Single table write (.error e) [.openTable table (.error e)]
  | opened {i : ι} {r : Except Error α} {work : List (Deed ι)} (closed : Option Error) :
    Guarded i (Worked i write) write r work →
      Single table write (conclude r closed) (.openTable table (.ok i) :: (work ++ [.ask i .close closed, .letGo i]))

theorem conclude_map (f : α → β) (r : Except Error α) (closed : Option Error) :
    (conclude r closed).map f = conclude (r.map f) closed := by
  cases r <;> cases closed <;> rfl

theorem Single.map {table : String} (h : Single table write r told) (f : α → β) : Single table write (r.map f) told := by
  cases h with
  | unopened e => exact .unopened e
  | opened closed hwork =>
    rw [conclude_map]
    exact .opened closed (hwork.map fun _ _ hq => hq.map f)

/-- **The error of a request is the first that occurred.** -/
theorem Single.firstError {table : String} (h : Single table write r told) : FirstError r told := by
  cases h with
  | unopened e => exact .inl rfl
  | @opened i r work closed hwork =>
    have hclosing : firstFailure [.ask i .close closed, .letGo i] = closed := by
      cases closed <;> rfl
    have hreleases : ∀ d ∈ [Deed.ask i .close closed, .letGo i], d.Releases := by
      intro d hd
      fin_cases hd <;> exact True.intro
    have hopened : firstFailure [.openTable table (.ok i)] = none := rfl
    have hfirst := FirstError.of_releases (Explains.after hopened hwork.explains) hreleases
    rw [hclosing] at hfirst
    exact hfirst

/-- **What ends with an error has written nothing**, unless the error is that the cursor could not be closed. -/
theorem Single.unwritten {table : String} {e : Error} (h : Single table write r told) (hr : r = .error e)
    (hclosed : ∀ i e, .ask i .close (some e) ∉ told) : ∀ d ∈ told, ¬d.Wrote := by
  cases h with
  | unopened e' => exact fun d hd => List.mem_singleton.1 hd ▸ fun hwrote => hwrote
  | @opened i r₀ work closed hwork =>
    have hwork' : ∀ d ∈ work, ¬d.Wrote := by
      cases closed with
      | some e' => exact absurd (List.mem_cons_of_mem _ (List.mem_append_right _ List.mem_cons_self)) (hclosed i e')
      | none =>
        have hr₀ : r₀ = .error e := by
          cases r₀ <;> exact hr
        cases hwork with
        | free hworked => exact hworked.not_wrote
        | unannounced e' => exact fun d hd => List.mem_singleton.1 hd ▸ fun hwrote => hwrote
        | unlocked e' =>
          intro d hd
          rcases List.mem_cons.1 hd with rfl | hd
          · exact fun hwrote => hwrote
          · exact List.mem_singleton.1 hd ▸ fun hwrote => hwrote
        | locked hworked =>
          intro d hd
          rcases List.mem_cons.1 hd with rfl | hd
          · exact fun hwrote => hwrote
          rcases List.mem_cons.1 hd with rfl | hd
          · exact fun hwrote => hwrote
          · exact hworked.unwritten e hr₀ d hd
    intro d hd
    rcases List.mem_cons.1 hd with rfl | hd
    · exact fun hwrote => hwrote
    rcases List.mem_append.1 hd with hd | hd
    · exact hwork' d hd
    rcases List.mem_cons.1 hd with rfl | hd
    · cases closed <;> exact fun hwrote => hwrote
    · exact List.mem_singleton.1 hd ▸ fun hwrote => hwrote

/-- Work after which something is closed in any case. -/
theorem concluding (work : Action σ α) (close : Action σ Unit) (s : σ) :
    (do
      let result ← Attempt.outcome work
      let closed ← Attempt.outcome close
      let answer ← Attempt.ofExcept result
      Attempt.ofExcept closed
      return answer : Action σ α) s =
      (conclude (work s).1 (failure? (close (work s).2).1), (close (work s).2).2) := by
  simp only [bind_apply, Attempt.outcome, Attempt.ofExcept]
  cases (work s).1 with
  | error e => rfl
  | ok a =>
    dsimp only
    cases (close (work s).2).1 <;> rfl

namespace Engine.Watched

variable {E : Engine σ τ κ} {w : Watch σ κ ι} {txn : τ} {schema : TableSchema} {cursors : List κ} {tuples : Nat}
  (h : E.Watched w txn)
include h

/-! ## Tuples -/

theorem disposeTuple : Tells (w.atRow cursors tuples i) E.disposeTuple
    (fun r told => r = .ok () ∧ told = [.tupleReleased]) fun _ => w.afterRow cursors tuples i := by
  rintro made ⟨tuple, c, s⟩ ⟨hlive, hname, hholds⟩
  refine ⟨[.tupleReleased], ?_⟩
  unfold Engine.disposeTuple
  rw [Tuple.dispose_apply, if_neg (Bool.eq_false_iff.1 hlive)]
  exact ⟨⟨rfl, rfl⟩, hname, h.tupleReleased hholds⟩

theorem finish : Tells (w.atRow cursors tuples i) (ByKey.finish E)
    (fun r told => r = .ok () ∧ told = [.tupleReleased]) fun _ => w.afterRow cursors tuples i := by
  rintro made ⟨tuple, c, s⟩ ⟨hlive, hat⟩
  have hclear : (Tuple.clear : Action (Tuple × κ × σ) Unit) (tuple, c, s) = (.ok (), { tuple with cells := [] }, c, s) := by
    unfold Tuple.clear
    rw [Tuple.setValues_apply, if_neg (Bool.eq_false_iff.1 hlive)]
  obtain ⟨told, htold, hafter⟩ := h.disposeTuple made ({ tuple with cells := [] }, c, s) ⟨hlive, hat⟩
  refine ⟨told, ?_⟩
  unfold ByKey.finish
  rw [bind_apply, hclear]
  exact ⟨htold, hafter⟩

/-- **A tuple is held.**  What the body leaves of it is released. -/
theorem holdingTuple {take : Action (κ × σ) Tuple} {call : Ask} (htake : w.Makes take call)
    {body : Action (Tuple × κ × σ) α} {Q Q' : Except Error α → List (Deed ι) → Prop}
    (hbody : Tells (w.atRow cursors tuples i) body Q fun _ => w.afterRow cursors tuples i)
    (hfail : ∀ e, Q' (.error e) [.ask i call (some e)])
    (hQ : ∀ r told releases, Q r told → (∀ d ∈ releases, d = .tupleReleased) →
      Q' r (.ask i call none :: (told ++ releases))) :
    Tells (w.atCursor cursors tuples i) (holding take E.letGoTuple body) Q' := by
  intro made here hhere
  obtain ⟨told, htold, hmade⟩ := htake cursors tuples i made here hhere
  unfold holding
  rcases htake : take here with ⟨e | tuple, here⟩ <;> rw [htake] at htold hmade
  · exact ⟨told, htold ▸ hfail e, hmade⟩
  · obtain ⟨more, hmore, hafter⟩ := hbody _ (tuple, here) hmade
    dsimp only
    rcases hleft : body (tuple, here) with ⟨r, left, c, s⟩
    rw [hleft] at hmore hafter
    obtain ⟨hname, hholds⟩ := hafter
    unfold Tuple.live at hholds
    unfold Engine.letGoTuple Tuple.letGo
    dsimp only at hholds ⊢
    cases hdisposed : left.disposed with
    | true =>
      rw [hdisposed] at hholds
      refine ⟨told ++ (more ++ []), htold ▸ hQ r more [] hmore fun _ hd => (by cases hd), ?_⟩
      rw [List.append_nil, ← List.append_assoc]
      exact ⟨hname, hholds⟩
    | false =>
      rw [hdisposed] at hholds
      refine ⟨told ++ (more ++ [.tupleReleased]), htold ▸ hQ r more _ hmore fun _ hd => List.mem_singleton.1 hd, ?_⟩
      rw [← List.append_assoc, ← List.append_assoc]
      exact ⟨hname, h.tupleReleased hholds⟩

theorem holdingTuple_worked {take : Action (κ × σ) Tuple} {call : Ask} (htake : w.Makes take call)
    (hcall : call.Works false) {body : Action (Tuple × κ × σ) α}
    (hbody : Tells (w.atRow cursors tuples i) body (Worked i write) fun _ => w.afterRow cursors tuples i) :
    Tells (w.atCursor cursors tuples i) (holding take E.letGoTuple body) (Worked i write) := by
  refine h.holdingTuple htake hbody (fun e => .ask call hcall.mono rfl) fun r told releases htold hreleases => ?_
  have htaken : Worked i false (.ok ()) [.ask i call none] := .ask call hcall rfl
  exact htaken.mono.append htaken.not_wrote (htold.released hreleases)

/-! ## Positioning -/

/-- A cursor is positioned; the key's tuple is released whatever the search ends with. -/
theorem position (key : Key) (mode : SearchMode) :
    Tells (w.atCursor cursors tuples i) (E.position key mode) (Worked i false) := by
  refine h.holdingTuple_worked (h.searchTuple key) True.intro ?_
  rintro made ⟨tuple, here⟩ ⟨hlive, hat⟩
  obtain ⟨told, htold, hsearched⟩ := h.search tuple mode _ _ _ made here hat
  obtain ⟨more, ⟨hok, hmore⟩, hafter⟩ := h.disposeTuple (made ++ told) (tuple, (E.search tuple mode here).2)
    ⟨hlive, hsearched⟩
  refine ⟨told ++ more, ?_⟩
  rw [← List.append_assoc]
  have hposition : (do
      let found ← Attempt.outcome (E.searchHeld mode)
      E.disposeTuple
      Attempt.ofExcept found : Action (Tuple × κ × σ) Bool) (tuple, here) =
        ((E.search tuple mode here).1, (E.disposeTuple (tuple, (E.search tuple mode here).2)).2) := by
    have hsearch : E.searchHeld mode (tuple, here) =
        ((E.search tuple mode here).1, tuple, (E.search tuple mode here).2) := rfl
    rw [bind_apply]
    unfold Attempt.outcome
    rw [hsearch]
    dsimp only
    rw [bind_apply]
    rcases hdispose : E.disposeTuple (tuple, (E.search tuple mode here).2) with ⟨r, rest⟩
    rw [hdispose] at hok
    cases hok
    rfl
  rw [hposition]
  refine ⟨Worked.released (Worked.ask .search True.intro htold) fun d hd => ?_, hafter⟩
  rw [hmore] at hd
  exact List.mem_singleton.1 hd

theorem lockForWrite : Tells (w.atCursor cursors tuples i) E.lockForWrite fun r told =>
    (∃ e, r = .error e ∧ told = [.ask i (.setLockMode .intentionExclusive) (some e)]) ∨
      told = [.ask i (.setLockMode .intentionExclusive) none, .ask i (.lock .exclusive) (failure? r)] := by
  refine (h.setLockMode _ _ _ _).bind (fun _ told htold => ?_) (fun e told htold => .inl ⟨e, rfl, htold⟩)
    fun _ _ _ hs => hs
  refine (h.lock _ _ _ _).weaken fun r more hmore => .inr ?_
  rw [htold, hmore]
  rfl

/-- **A row is looked for**, and used if it is found. -/
theorem find (key : Row) {use : Row → Action (Tuple × κ × σ) α}
    (huse : ∀ row, Tells (w.atRow cursors tuples i) (use row) (Worked i write) fun _ => w.afterRow cursors tuples i) :
    Tells (w.atCursor cursors tuples i) (ByKey.find E schema key use) (Searched i write) := by
  have hsilent : ∀ e : Error, Searched (α := α) i write (.error e) ([] : List (Deed ι)) := fun e =>
    ⟨.silent _, fun hr => by cases hr⟩
  have happend : ∀ {β : Type} {b : β} {r : Except Error (Option α)} {told more : List (Deed ι)},
      Worked i false (.ok b) told → Searched i write r more → Searched i write r (told ++ more) := by
    intro β b r told more htold hmore
    refine ⟨htold.mono.append htold.not_wrote hmore.1, fun hr d hd => ?_⟩
    exact (List.mem_append.1 hd).elim (htold.not_wrote d) (hmore.2 hr d)
  refine Tells.ofExcept_bind (fun leading _ => ?_) (fun e _ => hsilent e) fun _ _ _ hs => hs
  refine (h.position leading _).bind (fun positioned told htold => ?_)
    (fun e told htold => ⟨htold.mono.error, fun hr => by cases hr⟩) fun _ _ _ hs => hs
  refine Tells.weaken (Q := Searched i write) (Tells.state_bind fun here => ?_) fun r more hmore => happend htold hmore
  split
  · exact .pure ⟨.silent _, fun _ _ hd => by cases hd⟩
  refine h.holdingTuple h.readTuple (Q := Searched i write) ?_ (fun e => ?_) fun r told releases htold hreleases => ?_
  · refine (h.readRow _ _ _).bind (fun _ told htold => ?_) (fun e told htold => ?_) fun _ _ _ hs =>
      Watch.afterRow_of_atRow hs
    · refine Tells.weaken (Q := Searched i write) ?_ fun r more hmore =>
        happend (Worked.ask .readRow True.intro htold) hmore
      refine Tells.held_bind fun tuple => Tells.ofExcept_bind (fun row _ => ?_) (fun e _ => hsilent e) fun _ _ _ hs =>
        Watch.afterRow_of_atRow hs
      split
      · refine (huse row).bind (fun a told htold => .pure ?_) (fun e told htold => ⟨htold.error, fun hr => by cases hr⟩)
          fun _ _ _ hs => hs
        rw [List.append_nil]
        exact ⟨htold.map some, fun hr => by cases hr⟩
      · refine h.disposeTuple.bind (fun _ told htold => .pure ?_) (fun e told htold => by cases htold.1) fun _ _ _ hs => hs
        rw [List.append_nil, htold.2]
        exact ⟨(Worked.silent _).released fun d hd => List.mem_singleton.1 hd,
          fun _ d hd => List.mem_singleton.1 hd ▸ fun hwrote => hwrote⟩
    · exact ⟨.ask .readRow True.intro htold, fun hr => by cases hr⟩
  · exact ⟨.ask .readTuple True.intro rfl, fun hr => by cases hr⟩
  · refine happend (b := ()) (Worked.ask .readTuple True.intro rfl)
      ⟨htold.1.released hreleases, fun hr d hd => ?_⟩
    rcases List.mem_append.1 hd with hd | hd
    · exact htold.2 hr d hd
    · exact hreleases d hd ▸ fun hwrote => hwrote

/-- **A row is written through a tuple, which is then released.** -/
theorem writeRow {m : Action (Tuple × κ × σ) Unit} {call : Ask} (hm : w.RowAsked m call) (hcall : call.Works true) :
    Tells (w.atRow cursors tuples i) (do m; ByKey.finish E) (Worked i true) fun _ => w.afterRow cursors tuples i := by
  refine (hm _ _ _).bind (fun _ told htold => ?_) (fun e told htold => .ask call hcall htold) fun _ _ _ hs =>
    Watch.afterRow_of_atRow hs
  refine h.finish.weaken fun r more hmore => ?_
  obtain ⟨rfl, rfl⟩ := hmore
  exact (Worked.ask call hcall htold).released fun d hd => List.mem_singleton.1 hd

theorem insertPayload (payload : List Cell) :
    Tells (w.atCursor cursors tuples i) (ByKey.insertPayload E payload) (Worked i true) :=
  h.holdingTuple_worked h.readTuple True.intro (h.writeRow (h.insertRow payload) rfl)

omit h in
theorem rowAsked_below {m : Action (κ × σ) α} {call : Ask} (hm : w.Asked m call) :
    w.RowAsked (below m : Action (Tuple × κ × σ) α) call := by
  rintro cursors tuples i made ⟨tuple, here⟩ ⟨hlive, hat⟩
  obtain ⟨told, htold, hafter⟩ := hm _ _ _ made here hat
  exact ⟨told, htold, hlive, hafter⟩

/-! ## Requests -/

/-- **A cursor is locked for writing before it is used.** -/
theorem guarded (write : Bool) {Q : Except Error α → List (Deed ι) → Prop} {R : Except Error α → List (Deed ι) → κ × σ → Prop}
    {body : Action (κ × σ) α} (hbody : Tells (w.atCursor cursors tuples i) body Q R)
    (hR : ∀ e made here, w.atCursor cursors tuples i made here → R (.error e) made here) :
    Tells (w.atCursor cursors tuples i) (do
      if write then E.lockForWrite
      body) (Guarded i Q write) R := by
  cases write with
  | false => exact hbody.weaken fun _ _ hq => .free hq
  | true =>
    refine h.lockForWrite.bind (fun _ told htold => hbody.weaken fun r more hmore => ?_) (fun e told htold => ?_) hR
    · rcases htold with ⟨e, hr, -⟩ | rfl
      · cases hr
      · exact .locked hmore
    · rcases htold with ⟨e', hr, rfl⟩ | rfl
      · cases hr
        exact .unannounced e
      · exact .unlocked e

/-- **A cursor of its own is opened, used and released**, whatever becomes of the use. -/
theorem withCursor {body : Action (κ × σ) α}
    (hbody : ∀ i, Tells (w.atCursor cursors tuples i) body (Worked i write)) :
    Tells (w.idle cursors tuples) (ByKey.withCursor E txn schema write body) (Single schema.name write) := by
  intro made s hs
  obtain ⟨told, htold, hopened⟩ := h.openTable schema cursors tuples made s hs
  unfold ByKey.withCursor holding
  rcases hopen : E.openTable txn schema s with ⟨e | c, s⟩ <;> rw [hopen] at htold hopened
  · refine ⟨told, ?_, hopened⟩
    rw [htold]
    exact .unopened e
  · obtain ⟨work, hwork, hworked⟩ :=
      h.guarded write (hbody (w.name c)) (fun _ _ _ hs => hs) _ (c, s) ⟨rfl, hopened⟩
    obtain ⟨closing, hclosing, hclosed⟩ := h.close _ _ _ _ _ hworked
    dsimp only
    rw [concluding]
    refine ⟨told ++ (work ++ (closing ++ [.letGo (w.name c)])), ?_, ?_⟩
    · rw [htold, hclosing]
      exact .opened _ hwork
    · have hletGo := h.letGo hclosed.2
      rw [hclosed.1] at hletGo
      rw [← List.append_assoc, ← List.append_assoc, ← List.append_assoc]
      exact hletGo

theorem load (key : Row) : Tells (w.idle cursors tuples) (ByKey.load E txn schema key) (Single schema.name false) :=
  h.withCursor fun _ => (h.find key fun row => (h.finish.bind (fun _ told htold => .pure (by
    rw [List.append_nil, htold.2]
    exact (Worked.silent _).released fun d hd => List.mem_singleton.1 hd))
    (fun e told htold => by cases htold.1) fun _ _ _ hs => hs)).weaken fun _ _ hq => hq.1

theorem insert (row : Row) : Tells (w.idle cursors tuples) (ByKey.insert E txn schema row) (Single schema.name true) :=
  h.withCursor fun _ => .ofExcept_bind (fun payload _ => h.insertPayload payload) (fun _ _ => .silent _) fun _ _ _ hs => hs

omit h in
/-- What is found is replaced or deleted, and the answer is whether there was anything. -/
theorem answering {m : Action (κ × σ) (Option Unit)}
    (hm : Tells (w.atCursor cursors tuples i) m (Searched i true)) :
    Tells (w.atCursor cursors tuples i) (do return (← m).isSome) (Worked i true) := by
  refine hm.bind (fun a told htold => .pure ?_) (fun e told htold => htold.1.error) fun _ _ _ hs => hs
  rw [List.append_nil]
  exact htold.1.map Option.isSome

theorem update (row : Row) : Tells (w.idle cursors tuples) (ByKey.update E txn schema row) (Single schema.name true) :=
  h.withCursor fun _ => answering (h.find row fun _ => .ofExcept_bind
    (fun payload _ => h.writeRow (h.updateRow payload) rfl) (fun _ _ => .silent _) fun _ _ _ hs =>
      Watch.afterRow_of_atRow hs)

theorem delete (key : Row) : Tells (w.idle cursors tuples) (ByKey.delete E txn schema key) (Single schema.name true) :=
  h.withCursor fun _ => answering (h.find key fun _ => h.writeRow (rowAsked_below h.deleteRow) rfl)

theorem insertOrUpdate (row : Row) :
    Tells (w.idle cursors tuples) (ByKey.insertOrUpdate E txn schema row) (Single schema.name true) := by
  refine h.withCursor fun i => .ofExcept_bind (fun payload _ => ?_) (fun _ _ => .silent _) fun _ _ _ hs => hs
  refine (h.find row fun _ => h.writeRow (h.updateRow payload) rfl).bind (fun hit told htold => ?_)
    (fun e told htold => htold.1.error) fun _ _ _ hs => hs
  cases hit with
  | some _ => exact .pure (by rw [List.append_nil]; exact htold.1.map fun _ => true)
  | none =>
    -- nothing has been written yet, so the row may be added
    refine (h.insertPayload payload).bind (fun _ more hmore => .pure ?_) (fun e more hmore => ?_) fun _ _ _ hs => hs
    · rw [List.append_nil]
      exact htold.1.append (htold.2 rfl) (hmore.map fun _ => false)
    · exact htold.1.append (htold.2 rfl) hmore.error

/-- **A request opens, uses and releases one cursor.** -/
theorem perform (schema : TableSchema) (request : Memory.Request) (cursors : List κ) (tuples : Nat) :
    Tells (w.idle cursors tuples) (request.perform E txn schema) (Single schema.name request.writes) := by
  have hmap : ∀ {α : Type} {write : Bool} {m : Action σ α} (f : α → Memory.Reply),
      Tells (w.idle cursors tuples) m (Single schema.name write) →
        Tells (w.idle cursors tuples) (f <$> m) (Single schema.name write) := fun f hm => by
    intro made s hs
    obtain ⟨told, htold, hafter⟩ := hm made s hs
    rw [map_apply]
    exact ⟨told, htold.map f, hafter⟩
  cases request with
  | load key => exact hmap _ (h.load key)
  | insert row => exact hmap _ (h.insert row)
  | update row => exact hmap _ (h.update row)
  | insertOrUpdate row => exact hmap _ (h.insertOrUpdate row)
  | delete key => exact hmap _ (h.delete key)

end Engine.Watched
end RowStore

import RowStore.Engine.Fault
import RowStore.Proofs.CursorLogs
import RowStore.Proofs.PopulatedRuns
import RowStore.Proofs.RecordedCalls

/-!
# Every exit releases everything

On every engine whose calls are accounted for, and may fail anywhere with any error, a request leaves as many live tuples
and open cursors as there were, and so does a scan from opening until it is closed, whether by being read out, by its
continuation, by an error, by being closed or by being let go of (`Engine.Releases`).  Tuples go before cursors, the cursor
on an index before the one on the table, and the error that is answered is the first that occurred (`Engine.InOrder`).
-/
namespace RowStore

open Attempt

variable {σ τ κ α : Type}

/-! ## Using a scan -/

/-- What becomes of an open scan: it is pulled, visited by a sweep, or closed, or others work on the engine meanwhile. -/
inductive Use (σ : Type)
  | pull
  | visit (decide : Row → Mutation)
  | close
  | meanwhile (others : σ → σ)

namespace Use

/-- The sweep's visit of a row, with nothing to note. -/
def visited (E : Engine σ τ κ) (txn : τ) (decide : Row → Mutation) : Action (Scan κ × σ) (Option Mutation) := fun here =>
  let (r, (_, here)) := Sweep.next E txn (fun row (notes : Unit) => (decide row, notes)) ((), here)
  (r, here)

def run (E : Engine σ τ κ) (txn : τ) (use : Use σ) (here : Scan κ × σ) : Scan κ × σ :=
  match use with
  | pull => (Scan.next E here).2
  | visit decide => (visited E txn decide here).2
  | close => (Scan.close E here).2
  | meanwhile others => (here.1, others here.2)

/-- Others leave no tuple and no cursor behind. -/
def Fair (acc : Accounts σ κ) : Use σ → Prop
  | meanwhile others => ∀ s, acc.Same s (others s)
  | _ => True

/-- A scan that has been used. -/
def after (E : Engine σ τ κ) (txn : τ) (uses : List (Use σ)) (here : Scan κ × σ) : Scan κ × σ :=
  uses.foldl (fun here use => use.run E txn here) here

end Use

/-! ## Numbers -/

/-- **Whatever is asked of an engine, all that is taken is released.** -/
structure Engine.Releases (E : Engine σ τ κ) (acc : Accounts σ κ) (txn : τ) : Prop where
  request : ∀ schema (request : Memory.Request) s, acc.Same s (request.perform E txn schema s).2
  forEach : ∀ {ρ : Type} plan (visit : ρ → Row → ρ) notes s, acc.Same s (Scan.forEach E txn plan visit (notes, s)).2.2
  fold : ∀ {ρ : Type} plan (f : ρ → Row → ρ) initial s, acc.Same s (Scan.fold E txn plan f initial s).2
  /-- A scan that cannot be opened. -/
  unopened : ∀ plan write s e s', Scan.open E txn plan write s = (.error e, s') → acc.Same s s'
  /-- A scan that has been opened, and used in any way, until it is closed or let go of. -/
  opened : ∀ plan write s scan s' uses, Scan.open E txn plan write s = (.ok scan, s') → (∀ use ∈ uses, use.Fair acc) →
    ((Use.after E txn uses (scan, s')).1.progress = .closed → acc.Same s (Use.after E txn uses (scan, s')).2) ∧
      acc.Same s ((Use.after E txn uses (scan, s')).1.letGo E (Use.after E txn uses (scan, s')).2)

namespace Accounts

variable {acc : Accounts σ κ} {start s : σ}

/-- A scan is in use, and the numbers are those of the start and of what it holds. -/
def InUse (acc : Accounts σ κ) (start : σ) (here : Scan κ × σ) : Prop := (acc.watch start).atProgress [] 0 [] (Scan.view here)

theorem same_of_watch (h : (acc.watch start).holds [] [] 0 s) : acc.Same start s :=
  ⟨h.1.trans (Int.add_zero _), h.2.trans (Int.add_zero _)⟩

theorem watch_refl : (acc.watch s).holds [] [] 0 s := ⟨(Int.add_zero _).symm, (Int.add_zero _).symm⟩

theorem atProgress_watch {made : List (Deed Unit)} {x : Progress κ × σ} (h : (acc.watch start).atProgress [] 0 made x) :
    (acc.watch start).atProgress [] 0 [] x := by
  obtain ⟨progress, s⟩ := x
  cases progress <;> exact h

theorem InUse.same_of_closed {here : Scan κ × σ} (h : acc.InUse start here) (hclosed : here.1.progress = .closed) :
    acc.Same start here.2 := by
  unfold InUse Scan.view at h
  rw [hclosed] at h
  exact same_of_watch h

theorem InUse.meanwhile {here : Scan κ × σ} (h : acc.InUse start here) {others : σ → σ}
    (hothers : ∀ s, acc.Same s (others s)) : acc.InUse start (here.1, others here.2) := by
  obtain ⟨⟨plan, progress⟩, s⟩ := here
  obtain ⟨htuples, hcursors⟩ := hothers s
  cases progress with
  | closed => exact ⟨htuples.trans h.1, hcursors.trans h.2⟩
  | running held row => exact ⟨h.1, h.2.1, htuples.trans h.2.2.1, hcursors.trans h.2.2.2⟩

end Accounts

namespace Engine.Accounted

variable {E : Engine σ τ κ} {acc : Accounts σ κ} {txn : τ} (h : E.Accounted acc txn)
include h

omit h in
theorem same_of_tells {m : Action σ α} {Q : Except Error α → List (Deed Unit) → Prop}
    (hm : ∀ start, Tells ((acc.watch start).idle [] 0) m Q) (s : σ) : acc.Same s (m s).2 := by
  obtain ⟨told, -, hafter⟩ := hm s [] s Accounts.watch_refl
  exact Accounts.same_of_watch hafter

/-- **A use of a scan keeps the numbers.** -/
theorem inUse_run {use : Use σ} (hfair : use.Fair acc) {start : σ} {here : Scan κ × σ} (hin : acc.InUse start here) :
    acc.InUse start (use.run E txn here) := by
  cases use with
  | pull =>
    obtain ⟨told, -, hafter⟩ := (h.watched start).next [] 0 [] here hin
    exact Accounts.atProgress_watch hafter
  | visit decide =>
    obtain ⟨-, -, told, more, closing, -, -, -, hafter⟩ := (h.watched start).visit
      (fun row (notes : Unit) => (decide row, notes)) [] 0 [] ((), here) hin
    exact Accounts.atProgress_watch hafter
  | close =>
    obtain ⟨told, -, hafter⟩ := (h.watched start).close_pulls [] 0 [] here hin
    exact Accounts.atProgress_watch hafter
  | meanwhile others => exact hin.meanwhile hfair

theorem inUse_after {start : σ} : ∀ (uses : List (Use σ)) {here : Scan κ × σ}, (∀ use ∈ uses, use.Fair acc) →
    acc.InUse start here → acc.InUse start (Use.after E txn uses here)
  | [], _, _, hin => hin
  | use :: uses, _, hfair, hin => inUse_after uses (fun use huse => hfair use (List.mem_cons_of_mem _ huse))
      (h.inUse_run (hfair use List.mem_cons_self) hin)

theorem inUse_open {plan : Plan} {write : Bool} {s s' : σ} {scan : Scan κ}
    (hopen : Scan.open E txn plan write s = (.ok scan, s')) : acc.InUse s (scan, s') := by
  obtain ⟨told, -, hafter⟩ := (h.watched s).open plan write [] s Accounts.watch_refl
  rw [hopen] at hafter
  exact Accounts.atProgress_watch hafter

theorem releases : E.Releases acc txn where
  request schema request := same_of_tells fun start => (h.watched start).perform schema request [] 0
  forEach plan visit notes s := by
    obtain ⟨told, -, hafter⟩ := (h.watched s).forEach plan visit [] 0 [] (notes, s) Accounts.watch_refl
    exact Accounts.same_of_watch hafter
  fold plan f initial := same_of_tells fun start => (h.watched start).fold plan f initial [] 0
  unopened plan write s e s' hopen := by
    obtain ⟨told, -, hafter⟩ := (h.watched s).open plan write [] s Accounts.watch_refl
    rw [hopen] at hafter
    exact Accounts.same_of_watch hafter
  opened plan write s scan s' uses hopen hfair := by
    have hin := h.inUse_after uses hfair (h.inUse_open hopen)
    refine ⟨hin.same_of_closed, ?_⟩
    obtain ⟨told, -, -, -, hafter⟩ := (h.watched s).closeScan [] 0 [] _ _ hin
    exact Accounts.same_of_watch hafter

end Engine.Accounted

/-! ## Order -/

namespace Recorded

/-- The cursors that a scan holds, as they go in the record. -/
def left : Progress (Nat × κ) → Option (Cursors Nat)
  | .running held _ => some ⟨held.cursors.table.1, held.cursors.index.map Prod.fst⟩
  | .closed => none

/-- **A computation adds to the record what it asks for**, and its error is the first that occurred there. -/
def Asks {ω : Type} (record : ω → List (Deed Nat)) (m : Action ω α) (x : ω)
    (Q : Except Error α → ω → List (Deed Nat) → Prop) : Prop :=
  ∃ told, record (m x).2 = record x ++ told ∧ Q (m x).1 (m x).2 told ∧ FirstError (m x).1 told

end Recorded

/-- Others leave no tuple and no cursor behind, whatever they ask for. -/
def Accounts.recorded (acc : Accounts σ κ) : Accounts (Recorded σ) (Nat × κ) where
  tuples here := acc.tuples here.2
  cursors here := acc.cursors here.2
  isOpen c := acc.isOpen c.2

open Recorded in
/-- **Whatever is asked of an engine, it is released in order.** -/
structure Engine.InOrder (E : Engine σ τ κ) (acc : Accounts σ κ) (txn : τ) : Prop where
  request : ∀ schema (request : Memory.Request) here,
    Asks Prod.fst (request.perform E.recorded txn schema) here fun r _ told =>
      Single schema.name request.writes r told ∧ TuplesFirst 0 told
  forEach : ∀ {ρ : Type} plan (visit : ρ → Row → ρ) notes here,
    Asks (·.2.1) (Scan.forEach E.recorded txn plan visit) (notes, here) fun r _ told =>
      Opened plan.target.schema.name false none r told ∧ TuplesFirst 0 told
  fold : ∀ {ρ : Type} plan (f : ρ → Row → ρ) initial here,
    Asks Prod.fst (Scan.fold E.recorded txn plan f initial) here fun r _ told =>
      Opened plan.target.schema.name false none (done r) told ∧ TuplesFirst 0 told
  opened : ∀ plan write here, Asks Prod.fst (Scan.open E.recorded txn plan write) here fun r _ told =>
    Opened plan.target.schema.name write (left ((r.map Scan.progress).toOption.getD .closed)) (done r) told ∧
      TuplesFirst 0 told
  /-- A scan that has been opened and used in any way, while it is used once more or let go of. -/
  used : ∀ plan write here scan here' uses, Scan.open E.recorded txn plan write here = (.ok scan, here') →
    (∀ use ∈ uses, use.Fair acc.recorded) → ∀ there, there = Use.after E.recorded txn uses (scan, here') →
    ∀ held, held = left there.1.progress →
      (Asks (·.2.1) (Scan.next E.recorded) there fun r there' told =>
        Pulled held (left there'.1.progress) (done r) told ∧ TuplesFirst (heldBy held) told) ∧
      (∀ decide, Asks (·.2.1) (Use.visited E.recorded txn decide) there fun r there' told =>
        ∃ between pulled request closing, told = pulled ++ (request ++ closing) ∧
          Visited there.1.plan.target.schema.name held between (left there'.1.progress) (done r) pulled request closing ∧
            TuplesFirst (heldBy held) pulled ∧ TuplesFirst 0 request ∧ TuplesFirst (heldBy between) closing) ∧
      (Asks (·.2.1) (Scan.close E.recorded) there fun r _ told =>
        Released held told ∧ r = verdict told ∧ TuplesFirst (heldBy held) told) ∧
      ∃ told, (there.1.letGo E.recorded there.2).1 = there.2.1 ++ told ∧ Released held told ∧
        TuplesFirst (heldBy held) told

theorem firstError_done {ι : Type} {r : Except Error α} {told : List (Deed ι)} :
    FirstError (done r) told ↔ FirstError r told := by
  cases r <;> exact .rfl

namespace Accounts

variable {acc : Accounts σ κ} {start : σ} {record : List (Deed Nat)} {held : Nat}

theorem left_recordWatch {start : Recorded σ} (progress : Progress (Nat × κ)) :
    (acc.recordWatch start held).left progress = Recorded.left progress := by
  cases progress <;> rfl

theorem recordWatch_refl {here : Recorded σ} : (acc.recordWatch here 0).holds [] [] 0 here :=
  ⟨(List.append_nil _).symm, rfl, watch_refl⟩

/-- What has been told is what the record has grown by, and its tuples are those that the scan holds. -/
theorem told_of_recordWatch {start : Recorded σ} {made : List (Deed Nat)} {x : Progress (Nat × κ) × Recorded σ}
    (h : (acc.recordWatch start held).atProgress [] 0 made x) :
    x.2.1 = start.1 ++ made ∧ held + liveAfter made = heldBy (Recorded.left x.1) := by
  obtain ⟨progress, here⟩ := x
  cases progress with
  | closed => exact ⟨h.1, h.2.1⟩
  | running holdings row => exact ⟨h.2.2.1, h.2.2.2.1⟩

/-- A scan is in use, whatever the record says. -/
def InUseRecorded (acc : Accounts σ κ) (start : σ) (here : Scan (Nat × κ) × Recorded σ) : Prop :=
  (acc.recordWatch (here.2.1, start) (heldBy (Recorded.left here.1.progress))).atProgress [] 0 [] (Scan.view here)

theorem InUseRecorded.of_told {made : List (Deed Nat)} {scan : Scan (Nat × κ)} {here : Recorded σ}
    (h : (acc.recordWatch (record, start) held).atProgress [] 0 made (scan.progress, here)) :
    acc.InUseRecorded start (scan, here) := by
  obtain ⟨plan, progress⟩ := scan
  cases progress with
  | closed => exact ⟨(List.append_nil _).symm, rfl, h.2.2⟩
  | running holdings row => exact ⟨h.1, rfl, (List.append_nil _).symm, rfl, h.2.2.2.2⟩

theorem InUseRecorded.meanwhile {here : Scan (Nat × κ) × Recorded σ} (h : acc.InUseRecorded start here)
    {others : Recorded σ → Recorded σ} (hothers : ∀ s, acc.recorded.Same s (others s)) :
    acc.InUseRecorded start (here.1, others here.2) := by
  obtain ⟨⟨plan, progress⟩, s⟩ := here
  obtain ⟨htuples, hcursors⟩ := hothers s
  cases progress with
  | closed => exact ⟨(List.append_nil _).symm, rfl, htuples.trans h.2.2.1, hcursors.trans h.2.2.2⟩
  | running holdings row =>
    exact ⟨h.1, rfl, (List.append_nil _).symm, rfl, htuples.trans h.2.2.2.2.1, hcursors.trans h.2.2.2.2.2⟩

end Accounts

namespace Engine.Accounted

open Accounts

variable {E : Engine σ τ κ} {acc : Accounts σ κ} {txn : τ} (h : E.Accounted acc txn)
include h

/-! ### A scan in use -/

omit h in
/-- A scan that is pulled or closed adds that to the record, and stays in use. -/
theorem inUse_pulls {m : Action (Scan (Nat × κ) × Recorded σ) α} {start : σ}
    {here : Scan (Nat × κ) × Recorded σ} (hin : acc.InUseRecorded start here)
    (hm : (acc.recordWatch (here.2.1, start) (heldBy (Recorded.left here.1.progress))).Pulls Scan.view m) :
    Recorded.Asks (·.2.1) m here (fun r there told =>
        Pulled (Recorded.left here.1.progress) (Recorded.left there.1.progress) (done r) told ∧
          TuplesFirst (heldBy (Recorded.left here.1.progress)) told) ∧ acc.InUseRecorded start (m here).2 := by
  obtain ⟨told, hpulled, hafter⟩ := hm [] 0 [] here hin
  obtain ⟨hrecord, hlive⟩ := told_of_recordWatch hafter
  unfold Scan.view at hpulled
  dsimp only at hpulled
  rw [left_recordWatch, left_recordWatch] at hpulled
  exact ⟨⟨told, hrecord, ⟨hpulled, hpulled.tuplesFirst hlive⟩, firstError_done.1 hpulled.firstError⟩, .of_told hafter⟩

theorem inUse_visited (decide : Row → Mutation) {start : σ} {here : Scan (Nat × κ) × Recorded σ}
    (hin : acc.InUseRecorded start here) :
    Recorded.Asks (·.2.1) (Use.visited E.recorded txn decide) here (fun r there told =>
        ∃ between pulled request closing, told = pulled ++ (request ++ closing) ∧
          Visited here.1.plan.target.schema.name (Recorded.left here.1.progress) between (Recorded.left there.1.progress)
            (done r) pulled request closing ∧ TuplesFirst (heldBy (Recorded.left here.1.progress)) pulled ∧
              TuplesFirst 0 request ∧ TuplesFirst (heldBy between) closing) ∧
      acc.InUseRecorded start (Use.visited E.recorded txn decide here).2 := by
  obtain ⟨between, s, pulled, request, closing, hvisited, hbetween, hrequested, hafter⟩ :=
    (h.recorded (here.2.1, start) (heldBy (Recorded.left here.1.progress))).visit
      (fun row (notes : Unit) => (decide row, notes)) [] 0 [] ((), here) hin
  rw [left_recordWatch, left_recordWatch, left_recordWatch] at hvisited
  obtain ⟨-, hpulled⟩ := told_of_recordWatch hbetween
  obtain ⟨-, hrequest⟩ := told_of_recordWatch hrequested
  obtain ⟨hrecord, -⟩ := told_of_recordWatch hafter
  rw [List.nil_append] at hpulled hrequest hrecord
  rw [liveAfter_append, ← add_assoc, hpulled] at hrequest
  have hzero : liveAfter request = 0 := by linarith
  exact ⟨⟨_, hrecord, ⟨_, pulled, request, closing, rfl, hvisited, hvisited.tuplesFirst hpulled hzero⟩,
    firstError_done.1 hvisited.firstError⟩, .of_told hafter⟩

theorem inUse_close {start : σ} {here : Scan (Nat × κ) × Recorded σ} (hin : acc.InUseRecorded start here) :
    Recorded.Asks (·.2.1) (Scan.close E.recorded) here fun r _ told =>
      Released (Recorded.left here.1.progress) told ∧ r = verdict told ∧
        TuplesFirst (heldBy (Recorded.left here.1.progress)) told := by
  obtain ⟨scan, here⟩ := here
  obtain ⟨told, hreleased, hr, -, hafter⟩ :=
    (h.recorded (here.1, start) (heldBy (Recorded.left scan.progress))).closeScan [] 0 [] scan here hin
  rw [left_recordWatch] at hreleased
  refine ⟨told, hafter.1, ⟨hreleased, hr, hreleased.tuplesFirst⟩, ?_⟩
  rw [hr]
  exact hreleased.pulled.firstError

/-- **A use of a scan keeps it in use.** -/
theorem inUseRecorded_run {use : Use (Recorded σ)} (hfair : use.Fair acc.recorded) {start : σ}
    {here : Scan (Nat × κ) × Recorded σ} (hin : acc.InUseRecorded start here) :
    acc.InUseRecorded start (use.run E.recorded txn here) := by
  cases use with
  | pull => exact (inUse_pulls hin (h.recorded _ _).next).2
  | visit decide => exact (h.inUse_visited decide hin).2
  | close => exact (inUse_pulls hin (h.recorded _ _).close_pulls).2
  | meanwhile others => exact hin.meanwhile hfair

theorem inUseRecorded_after {start : σ} : ∀ (uses : List (Use (Recorded σ))) {here : Scan (Nat × κ) × Recorded σ},
    (∀ use ∈ uses, use.Fair acc.recorded) → acc.InUseRecorded start here →
      acc.InUseRecorded start (Use.after E.recorded txn uses here)
  | [], _, _, hin => hin
  | use :: uses, _, hfair, hin =>
    inUseRecorded_after uses (fun use huse => hfair use (List.mem_cons_of_mem _ huse))
      (h.inUseRecorded_run (hfair use List.mem_cons_self) hin)

theorem inOrder : E.InOrder acc txn where
  request schema request here := by
    obtain ⟨told, hsingle, hrecord, hlive, -⟩ := (h.recorded here 0).perform schema request [] 0 [] here recordWatch_refl
    exact ⟨told, hrecord, ⟨hsingle, hsingle.tuplesFirst ((Int.zero_add _).symm.trans hlive)⟩, hsingle.firstError⟩
  forEach plan visit notes here := by
    obtain ⟨told, hopened, hrecord, hlive, -⟩ := (h.recorded here 0).forEach plan visit [] 0 [] (notes, here) recordWatch_refl
    exact ⟨told, hrecord, ⟨hopened, hopened.tuplesFirst ((Int.zero_add _).symm.trans hlive)⟩, hopened.firstError⟩
  fold plan f initial here := by
    obtain ⟨told, hopened, hrecord, hlive, -⟩ := (h.recorded here 0).fold plan f initial [] 0 [] here recordWatch_refl
    exact ⟨told, hrecord, ⟨hopened, hopened.tuplesFirst ((Int.zero_add _).symm.trans hlive)⟩,
      firstError_done.1 hopened.firstError⟩
  opened plan write here := by
    obtain ⟨told, hopened, hafter⟩ := (h.recorded here 0).open plan write [] here recordWatch_refl
    obtain ⟨hrecord, hlive⟩ := told_of_recordWatch hafter
    rw [left_recordWatch] at hopened
    exact ⟨told, hrecord, ⟨hopened, hopened.tuplesFirst ((Int.zero_add _).symm.trans hlive)⟩,
      firstError_done.1 hopened.firstError⟩
  used plan write here scan here' uses hopen hfair there hthere held hheld := by
    subst hthere hheld
    obtain ⟨told, -, hafter⟩ := (h.recorded here 0).open plan write [] here recordWatch_refl
    rw [hopen] at hafter
    have hin := h.inUseRecorded_after uses hfair (.of_told hafter)
    refine ⟨(inUse_pulls hin (h.recorded _ _).next).1, fun decide => (h.inUse_visited decide hin).1, h.inUse_close hin, ?_⟩
    obtain ⟨told, hrecord, ⟨hreleased, -, htuples⟩, -⟩ := h.inUse_close hin
    exact ⟨told, hrecord, hreleased, htuples⟩

end Engine.Accounted

/-! ## Every exit -/

/-- **Every way out of a request or a scan releases all that was taken**, whichever calls fail and with whatever errors:
the numbers of live tuples and open cursors are as before, tuples are released before cursors and the cursor on an index
before the one on the table, and the first error is the one that is answered. -/
theorem Engine.Accounted.exits_release_everything {E : Engine σ τ κ} {acc : Accounts σ κ} {txn : τ}
    (h : E.Accounted acc txn) : E.Releases acc txn ∧ E.InOrder acc txn := ⟨h.releases, h.inOrder⟩

/-! ## Engines that are accounted for -/

/-- The accounts of a part of the state. -/
def Accounts.below {ρ : Type} (acc : Accounts σ κ) : Accounts (ρ × σ) κ where
  tuples s := acc.tuples s.2
  cursors s := acc.cursors s.2
  isOpen := acc.isOpen

namespace Faults

variable {acc : Accounts σ κ} {method : Method}

theorem keeps_guardHeld {m : Action (κ × σ) α} (h : acc.Keeps m) : acc.below.Keeps (guardHeld method m) := by
  rintro ⟨c, faults, s⟩
  unfold guardHeld
  dsimp only
  rcases faults.strike method with ⟨_ | status, faults'⟩
  · exact h (c, s)
  · exact ⟨(Int.add_zero _).symm, rfl⟩

theorem makes_guardHeld {m : Action (κ × σ) Tuple} (h : acc.Makes m) : acc.below.Makes (guardHeld method m) := by
  rintro ⟨c, faults, s⟩
  unfold guardHeld
  dsimp only
  rcases faults.strike method with ⟨_ | status, faults'⟩
  · exact h (c, s)
  · exact ⟨(Int.add_zero _).symm, rfl⟩

theorem keepsRow_guardRow {m : Action (Tuple × κ × σ) α} (h : acc.KeepsRow m) :
    acc.below.KeepsRow (guardRow method m) := by
  rintro tuple ⟨c, faults, s⟩
  unfold guardRow guardHeld
  dsimp only
  rcases faults.strike method with ⟨_ | status, faults'⟩
  · exact h tuple (c, s)
  · exact ⟨rfl, (Int.add_zero _).symm, rfl⟩

theorem opens_guard {m : Action σ κ} (h : acc.Opens m) : acc.below.Opens (guard method m) := by
  rintro ⟨faults, s⟩
  unfold guard
  dsimp only
  rcases faults.strike method with ⟨_ | status, faults'⟩
  · exact h s
  · exact ⟨rfl, rfl⟩

end Faults

/-- **Planned faults change nothing of the accounts.** -/
theorem Engine.Accounted.withFaults {E : Engine σ τ κ} {acc : Accounts σ κ} {txn : τ} (h : E.Accounted acc txn)
    (abandon : τ → σ → σ) : (E.withFaults abandon).Accounted acc.below txn where
  openTable schema := Faults.opens_guard (h.openTable schema)
  openIndex table index := Faults.opens_guard (h.openIndex table index)
  setLockMode mode := Faults.keeps_guardHeld (h.setLockMode mode)
  lock mode := Faults.keeps_guardHeld (h.lock mode)
  setClusterAccess := Faults.keeps_guardHeld h.setClusterAccess
  searchTuple key := Faults.makes_guardHeld (h.searchTuple key)
  readTuple := Faults.makes_guardHeld h.readTuple
  search tuple mode := Faults.keeps_guardHeld (h.search tuple mode)
  readRow := Faults.keepsRow_guardRow h.readRow
  insertRow cells := Faults.keepsRow_guardRow (h.insertRow cells)
  updateRow cells := Faults.keepsRow_guardRow (h.updateRow cells)
  deleteRow := Faults.keeps_guardHeld h.deleteRow
  advance direction := Faults.keeps_guardHeld (h.advance direction)
  close := Faults.keeps_guardHeld h.close
  tupleReleased s := h.tupleReleased s.2
  letGo c s := h.letGo c s.2

namespace Memory

/-- The accounts of a database, from its ledger. -/
def accounts : Accounts Database Cursor where
  tuples db := db.ledger.tuplesCreated - db.ledger.tuplesDisposed
  cursors db := db.ledger.cursorsOpened - db.ledger.cursorsClosed
  isOpen c := !c.closed

namespace Cursor

theorem Noted.moves {mark : Option Mark} {here here' : Cursor × Database} (h : Noted mark (fun l => l) here here') :
    accounts.Moves here here' 0 := by
  unfold Accounts.Moves Accounts.count accounts
  dsimp only
  rw [h.ledger, h.closed, Int.add_zero]
  exact ⟨rfl, rfl⟩

theorem Notes.keeps {mark : Option Mark} {m : Action (Cursor × Database) α} (h : Notes mark m) : accounts.Keeps m :=
  fun here => (h here).moves

theorem RowNotes.keeps {mark : Option Mark} {m : Action (Tuple × Cursor × Database) α} (h : RowNotes mark m) :
    accounts.KeepsRow m := fun tuple here => ⟨(h tuple here).1, (h tuple here).2.moves⟩

theorem NotesTuple.makes {m : Action (Cursor × Database) Tuple} (h : NotesTuple m) : accounts.Makes m := by
  intro here
  have hm := h here
  rcases hms : m here with ⟨e | tuple, here'⟩ <;> rw [hms] at hm
  · exact hm.moves
  · refine ⟨hm.1, ?_⟩
    unfold Accounts.Moves Accounts.count accounts
    dsimp only
    rw [hm.2.ledger, hm.2.closed]
    refine ⟨?_, rfl⟩
    unfold Ledger.tupleCreated
    push_cast
    ring

theorem NotesOpening.opens {id : Nat} {onIndex : Bool} {m : Action Database Cursor} (h : NotesOpening id onIndex m) :
    accounts.Opens m := by
  intro db
  have hm := h db
  unfold accounts
  rcases hc : m db with ⟨e | c, db'⟩ <;> rw [hc] at hm
  · dsimp only at hm ⊢
    rw [hm.2.1]
    exact ⟨rfl, rfl⟩
  · obtain ⟨-, -, hopen, -, hledger, -⟩ := hm
    dsimp only
    rw [hledger, hopen]
    refine ⟨rfl, rfl, ?_⟩
    unfold Ledger.cursorOpened
    push_cast
    ring

theorem moves_release (here : Cursor × Database) : accounts.Moves here (release here) 0 := by
  obtain ⟨c, db⟩ := here
  obtain ⟨-, -, hclosed, -, hledger, -⟩ := release_journal c db
  unfold Accounts.Moves Accounts.count accounts
  dsimp only
  rw [hledger, hclosed]
  cases c.closed with
  | true => exact ⟨(Int.add_zero _).symm, rfl⟩
  | false =>
    refine ⟨(Int.add_zero _).symm, ?_⟩
    unfold Ledger.cursorClosed
    simp
    ring

end Cursor

/-- **The database in memory accounts for all its calls.** -/
theorem accounted_engine (txn : Transaction) : engine.Accounted accounts txn where
  openTable schema := (Cursor.notesOpening_create _ schema none).opens
  openIndex table index := (Cursor.notesOpening_createOnIndex _ table index).opens
  setLockMode mode := (Cursor.notes_setLockMode mode).keeps
  lock mode := (Cursor.notes_lock mode).keeps
  setClusterAccess := Cursor.notes_setClusterAccess.keeps
  searchTuple key := (Cursor.notesTuple_searchTuple key).makes
  readTuple := Cursor.notesTuple_readTuple.makes
  search tuple mode := (Cursor.notes_search tuple mode).keeps
  readRow := Cursor.rowNotes_readRow.keeps
  insertRow cells := (Cursor.rowNotes_insertRow cells).keeps
  updateRow cells := (Cursor.rowNotes_updateRow cells).keeps
  deleteRow := Cursor.notes_deleteRow.keeps
  advance direction := (Cursor.notes_advance direction).keeps
  close := Cursor.moves_release
  tupleReleased db := by
    unfold accounts engine Ledger.tupleDisposed
    refine ⟨?_, rfl⟩
    push_cast
    ring
  letGo c db := by
    obtain ⟨htuples, hcursors⟩ := Cursor.moves_release (c, db)
    have hclosed : accounts.count (Cursor.release (c, db)).1 = 0 := by
      unfold Accounts.count accounts
      dsimp only
      rw [(Cursor.release_journal c db).2.2.1]
      rfl
    rw [hclosed, Int.sub_zero] at hcursors
    exact ⟨htuples.trans (Int.add_zero _), hcursors⟩

open Database

/-- Two calls that are planned to fail: the search, and the closing behind it. -/
def doubleFault : Faults × Database :=
  ([⟨.search, 1, .deadlock⟩, ⟨.close, 1, .lockWaitTimeout⟩], run peopleCalls)

/-- Nobody can be deleted then; the search's error is the answer, and all is released. -/
theorem exits_release_people :
    (Request.perform (engine.withFaults fun txn => Database.abandon txn.id) ⟨1, .readCommitted⟩ people
        (.delete (person 1 "ada")) doubleFault).1 = .error (.engine .deadlock) ∧
      accounts.below.Same doubleFault (Request.perform (engine.withFaults fun txn => Database.abandon txn.id)
        ⟨1, .readCommitted⟩ people (.delete (person 1 "ada")) doubleFault).2 :=
  ⟨by cbv, (((accounted_engine _).withFaults _).exits_release_everything).1.request people (.delete (person 1 "ada")) _⟩

end Memory
end RowStore

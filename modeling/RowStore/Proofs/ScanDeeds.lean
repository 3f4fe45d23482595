import RowStore.Proofs.ByKeyDeeds
import RowStore.Scan.Sweep

/-!
# What a scan asks of an engine

A scan opens a cursor on the table, and one on a secondary index if it walks one, locks the one that it reads through if
it may write, and positions it (`Taken`).  Each pull works on that cursor alone; the end of the index, a failed
continuation and an error end the scan: the tuple is released, and then the cursors are closed, the one on the index
before the one on the table, both in any case (`Pulled`).  Between two pulls a sweep makes the requests that it
has decided on (`Visited`).
-/
namespace RowStore

open Attempt

variable {ι σ τ κ ρ α β : Type}

/-! ## Releasing -/

namespace Cursors

/-- The cursor that rows are read through. -/
def reader (cursors : Cursors κ) : κ := cursors.index.getD cursors.table

/-- The cursors, first the one that rows are read through. -/
def list (cursors : Cursors κ) : List κ := cursors.index.toList ++ [cursors.table]

/-- The cursor on the index is closed first, then the one on the table, and then both are let go of. -/
def closing (n : Cursors ι) (indexClosed tableClosed : Option Error) : List (Deed ι) :=
  match n.index with
  | none => [.ask n.table .close tableClosed, .letGo n.table]
  | some i => [.ask i .close indexClosed, .ask n.table .close tableClosed, .letGo n.table, .letGo i]

/-- The tuple is released before the cursors are closed. -/
def ending (n : Cursors ι) (indexClosed tableClosed : Option Error) : List (Deed ι) :=
  .tupleReleased :: n.closing indexClosed tableClosed

variable {n : Cursors ι} {indexClosed tableClosed : Option Error}

theorem releases_closing : ∀ d ∈ n.closing indexClosed tableClosed, d.Releases := by
  unfold closing
  cases n.index with
  | none =>
    intro d hd
    fin_cases hd <;> exact True.intro
  | some i =>
    intro d hd
    fin_cases hd <;> exact True.intro

theorem releases_ending : ∀ d ∈ n.ending indexClosed tableClosed, d.Releases := by
  intro d hd
  rcases List.mem_cons.1 hd with rfl | hd
  · exact True.intro
  · exact releases_closing d hd

end Cursors

/-- The result of calls of which the first failure is the answer. -/
def verdict (told : List (Deed ι)) : Except Error Unit :=
  match firstFailure told with
  | none => .ok ()
  | some e => .error e

theorem failure?_verdict (told : List (Deed ι)) : failure? (verdict told) = firstFailure told := by
  unfold verdict
  cases firstFailure told <;> rfl

/-! ## What is at hand -/

namespace Watch

variable (w : Watch σ κ ι)

def names (cursors : Cursors κ) : Cursors ι := ⟨w.name cursors.table, cursors.index.map w.name⟩

variable (cursors : List κ) (tuples : Nat) (n : Cursors ι)

/-- The cursors of a scan are at hand. -/
def atCursors (made : List (Deed ι)) (here : Cursors κ × σ) : Prop :=
  w.names here.1 = n ∧ w.holds made (here.1.list ++ cursors) tuples here.2

/-- All that a running scan holds is at hand. -/
def atHoldings (made : List (Deed ι)) (here : Holdings κ × σ) : Prop :=
  here.1.tuple.disposed = false ∧ w.atCursors cursors (tuples + 1) n made (here.1.cursors, here.2)

/-- The cursors that a scan holds. -/
def left : Progress κ → Option (Cursors ι)
  | .running held _ => some (w.names held.cursors)
  | .closed => none

/-- All that a scan holds is at hand, and nothing if it is closed. -/
def atProgress (made : List (Deed ι)) : Progress κ × σ → Prop
  | (.running held _, s) => w.atHoldings cursors tuples (w.names held.cursors) made (held, s)
  | (.closed, s) => w.holds made cursors tuples s

variable {w cursors tuples n}

theorem left_eq_none {progress : Progress κ} (h : w.left progress = none) : progress = .closed := by
  cases progress with
  | closed => rfl
  | running held row => cases h

end Watch

/-! ## Opening -/

/-- The cursor on the index is opened and made to read whole rows, if there is an index to walk. -/
inductive IndexOpened : Except Error (Option ι) → List (Deed ι) → Prop
  | without : IndexOpened (.ok none) []
  | opened (i : ι) : IndexOpened (.ok (some i)) [.openIndex (.ok i), .ask i .setClusterAccess none]
  | unopened (e : Error) : IndexOpened (.error e) [.openIndex (.error e)]
  | unreadable (i : ι) (e : Error) : IndexOpened (.error e)
    [.openIndex (.ok i), .ask i .setClusterAccess (some e), .letGo i]

/-- **The cursors of a scan are opened, locked if there may be writes, and positioned.**  If that fails, what has been
opened is released. -/
inductive Taken (table : String) (write : Bool) : Except Error (Cursors ι) → List (Deed ι) → Prop
  | unplanned (e : Error) : Taken table write (.error e) []
  | unopened (e : Error) : Taken table write (.error e) [.openTable table (.error e)]
  | unindexed {t : ι} {e : Error} {opening : List (Deed ι)} (indexClosed tableClosed : Option Error) :
    IndexOpened (.error e) opening →
      Taken table write (.error e) (.openTable table (.ok t) ::
        (opening ++ Cursors.closing ⟨t, none⟩ indexClosed tableClosed))
  | unpositioned {n : Cursors ι} {e : Error} {opening work : List (Deed ι)} (indexClosed tableClosed : Option Error) :
    IndexOpened (.ok n.index) opening →
      Guarded n.reader (Worked n.reader false) write (.error e : Except Error Tuple) work →
      Taken table write (.error e) (.openTable table (.ok n.table) ::
        (opening ++ (work ++ n.closing indexClosed tableClosed)))
  | taken {n : Cursors ι} {tuple : Tuple} {opening work : List (Deed ι)} :
    IndexOpened (.ok n.index) opening → Guarded n.reader (Worked n.reader false) write (.ok tuple) work →
      Taken table write (.ok n) (.openTable table (.ok n.table) :: (opening ++ work))

theorem IndexOpened.explains {r : Except Error (Option ι)} {told : List (Deed ι)} (h : IndexOpened r told) :
    Explains r told := by
  cases h with
  | without | opened i => exact fun e he => by cases he
  | unopened e | unreadable i e => exact fun _ he => congrArg Except.error (Option.some.inj he)

/-- What comes between opening the table and releasing all says why opening has failed. -/
theorem FirstError.of_taking {table : String} {t : ι} {e : Error} {opening closing : List (Deed ι)}
    (h : Explains (.error e : Except Error α) opening) (hclosing : ∀ d ∈ closing, d.Releases) :
    FirstError (.error e : Except Error β) (.openTable table (.ok t) :: (opening ++ closing)) :=
  .of_releases (h.error.after (show firstFailure [.openTable table (.ok t)] = none from rfl)) hclosing

/-- **The error of opening is the first that occurred.** -/
theorem Taken.firstError {table : String} {write : Bool} {r : Except Error (Cursors ι)} {told : List (Deed ι)}
    (h : Taken table write r told) : FirstError r told := by
  cases h with
  | unplanned e => exact .inr ⟨[], [], rfl, rfl, fun _ hd => by cases hd⟩
  | unopened e => exact .inl rfl
  | unindexed indexClosed tableClosed hopening => exact .of_taking hopening.explains Cursors.releases_closing
  | unpositioned indexClosed tableClosed hopening hwork =>
    rw [← List.append_assoc]
    exact .of_taking (hopening.explains.append hwork.explains) Cursors.releases_closing
  | taken hopening hwork =>
    exact (hopening.explains.append hwork.explains).ok

/-! ## Pulling -/

/-- Whether something went well, whatever it answers. -/
def done (r : Except Error α) : Except Error Unit := r.map fun _ => ()

@[simp] theorem done_unit (r : Except Error Unit) : done r = r := by
  cases r <;> rfl

/-- **What a scan asks for while it is pulled**, by the cursors that it holds before and after it.  A closed scan asks for
nothing.  A scan that goes on has worked on one cursor.  A scan that does not has released all that it held. -/
inductive Pulled : Option (Cursors ι) → Option (Cursors ι) → Except Error Unit → List (Deed ι) → Prop
  | rest : Pulled none none (.ok ()) []
  | on {n : Cursors ι} {work : List (Deed ι)} : Worked n.reader false (.ok ()) work → Pulled (some n) (some n) (.ok ()) work
  | ended {n : Cursors ι} {r : Except Error Unit} {work : List (Deed ι)} (indexClosed tableClosed : Option Error) :
    Worked n.reader false r work →
      Pulled (some n) none (conclude r (firstFailure (n.ending indexClosed tableClosed)))
        (work ++ n.ending indexClosed tableClosed)

namespace Pulled

variable {before between after : Option (Cursors ι)} {r : Except Error Unit} {told more : List (Deed ι)}

/-- Pulling may go on. -/
theorem trans (h : Pulled before between (.ok ()) told) (hmore : Pulled between after r more) :
    Pulled before after r (told ++ more) := by
  cases hmore with
  | rest =>
    rw [List.append_nil]
    exact h
  | on hmore =>
    cases h with
    | on hwork => exact .on (hwork.append hwork.not_wrote hmore)
  | ended indexClosed tableClosed hmore =>
    cases h with
    | on hwork =>
      rw [← List.append_assoc]
      exact .ended indexClosed tableClosed (hwork.append hwork.not_wrote hmore)

/-- **What fails is the last that a scan asks for.** -/
theorem after_of_error {e : Error} (h : Pulled before after r told) (hr : r = .error e) : after = none := by
  cases h with
  | rest | ended => rfl
  | on => cases hr

theorem of_none (h : Pulled none after r told) : after = none ∧ r = .ok () ∧ told = [] := by
  cases h
  exact ⟨rfl, rfl, rfl⟩

theorem firstError (h : Pulled before after r told) : FirstError r told := by
  cases h with
  | rest => exact rfl
  | on hwork => exact hwork.explains.ok
  | ended indexClosed tableClosed hwork => exact .of_releases hwork.explains Cursors.releases_ending

end Pulled

/-- **A scan is opened and pulled.** -/
inductive Opened (table : String) (write : Bool) :
    Option (Cursors ι) → Except Error Unit → List (Deed ι) → Prop
  | failed {e : Error} {told : List (Deed ι)} : Taken table write (.error e) told → Opened table write none (.error e) told
  | taken {n : Cursors ι} {after : Option (Cursors ι)} {r : Except Error Unit} {told more : List (Deed ι)} :
    Taken table write (.ok n) told → Pulled (some n) after r more → Opened table write after r (told ++ more)

theorem Opened.trans {table : String} {write : Bool} {between after : Option (Cursors ι)} {r : Except Error Unit}
    {told more : List (Deed ι)} (h : Opened table write between (.ok ()) told) (hmore : Pulled between after r more) :
    Opened table write after r (told ++ more) := by
  cases h with
  | taken htaken hpulled =>
    rw [List.append_assoc]
    exact .taken htaken (hpulled.trans hmore)

theorem Opened.firstError {table : String} {write : Bool} {after : Option (Cursors ι)} {r : Except Error Unit}
    {told : List (Deed ι)} (h : Opened table write after r told) : FirstError r told := by
  cases h with
  | failed htaken => exact htaken.firstError
  | taken htaken hpulled => exact .after htaken.firstError hpulled.firstError

namespace Engine.Watched

variable {E : Engine σ τ κ} {w : Watch σ κ ι} {txn : τ} {cursors : List κ} {tuples : Nat} {n : Cursors ι} {i : ι}
  {write : Bool} (h : E.Watched w txn)
include h

/-! ## Releasing -/

/-- **Both cursors are tried**, the one on the index first, and the first failure is the answer. -/
theorem closeCursors (c : Cursors κ) :
    Tells (fun made s => w.atCursors cursors tuples n made (c, s)) (c.close E)
      (fun r told => (∃ indexClosed tableClosed, told = n.closing indexClosed tableClosed) ∧ r = verdict told)
      fun _ => w.idle cursors tuples := by
  rintro made s ⟨rfl, hholds⟩
  obtain ⟨table, index⟩ := c
  cases index with
  | none =>
    obtain ⟨closed, rfl, hname, hafter⟩ := h.close cursors tuples _ made (table, s) ⟨rfl, hholds⟩
    have hletGo := h.letGo hafter
    rw [hname, List.append_assoc] at hletGo
    refine ⟨_, ⟨⟨none, failure? (E.close (table, s)).1, rfl⟩, ?_⟩, hletGo⟩
    show (E.close (table, s)).1 = verdict [.ask _ .close (failure? (E.close (table, s)).1), .letGo _]
    cases (E.close (table, s)).1 <;> rfl
  | some index =>
    obtain ⟨closed, rfl, hname, hafter⟩ := h.close (table :: cursors) tuples _ made (index, s) ⟨rfl, hholds⟩
    have hswapped := h.perm (List.Perm.swap table _ cursors) hafter
    obtain ⟨closed', rfl, hname', hafter'⟩ := h.close (_ :: cursors) tuples _ _ (table, (E.close (index, s)).2.2)
      ⟨rfl, hswapped⟩
    have hletGo := h.letGo (h.letGo hafter')
    rw [hname, hname', List.append_assoc, List.append_assoc, List.append_assoc] at hletGo
    refine ⟨_, ⟨⟨failure? (E.close (index, s)).1, failure? (E.close (table, (E.close (index, s)).2.2)).1, rfl⟩, ?_⟩, hletGo⟩
    show ((E.close (index, s)).1 *> (E.close (table, (E.close (index, s)).2.2)).1) =
      verdict [.ask _ .close (failure? (E.close (index, s)).1),
        .ask _ .close (failure? (E.close (table, (E.close (index, s)).2.2)).1), .letGo _, .letGo _]
    cases (E.close (index, s)).1 <;> cases (E.close (table, (E.close (index, s)).2.2)).1 <;> rfl

/-- **The tuple is released before the cursors are closed**, and all is tried. -/
theorem closeHoldings (held : Holdings κ) :
    Tells (fun made s => w.atHoldings cursors tuples n made (held, s)) (held.close E)
      (fun r told => (∃ indexClosed tableClosed, told = n.ending indexClosed tableClosed) ∧ r = verdict told)
      fun _ => w.idle cursors tuples := by
  rintro made s ⟨hlive, hnames, hholds⟩
  obtain ⟨told, ⟨⟨indexClosed, tableClosed, rfl⟩, hr⟩, hafter⟩ := h.closeCursors (n := n) held.cursors _
    (E.tupleReleased s) ⟨hnames, h.tupleReleased hholds⟩
  rw [List.append_assoc] at hafter
  have hclose : held.close E s = (verdict (n.closing indexClosed tableClosed),
      (held.cursors.close E (E.tupleReleased s)).2) := by
    unfold Holdings.close
    rw [Tuple.dispose_apply, if_neg (Bool.eq_false_iff.1 hlive)]
    dsimp only
    rw [hr]
    cases verdict (n.closing indexClosed tableClosed) <;> rfl
  rw [hclose]
  exact ⟨_, ⟨⟨indexClosed, tableClosed, rfl⟩, rfl⟩, hafter⟩

/-! ## The cursor that rows are read through -/

omit h in
/-- A tuple is made by the cursor that rows are read through. -/
theorem onReader {call : Action (κ × σ) Tuple} {Q : Except Error Tuple → List (Deed ι) → Prop}
    (hcall : ∀ others, Tells (w.atCursor others tuples n.reader) call Q (w.madeTuple others tuples n.reader)) :
    Tells (w.atCursors cursors tuples n) (Cursors.onActive call) Q fun r made here => match r with
      | .ok tuple => w.atHoldings cursors tuples n made (⟨tuple, here.1⟩, here.2)
      | .error _ => w.atCursors cursors tuples n made here := by
  rintro made ⟨⟨table, index⟩, s⟩ ⟨rfl, hholds⟩
  cases index with
  | none =>
    obtain ⟨told, htold, hafter⟩ := hcall cursors made (table, s) ⟨rfl, hholds⟩
    refine ⟨told, htold, ?_⟩
    dsimp only [Cursors.onActive]
    rcases hcalled : call (table, s) with ⟨e | tuple, table', s'⟩ <;> rw [hcalled] at hafter
    · exact ⟨congrArg (Cursors.mk · none) hafter.1, hafter.2⟩
    · exact ⟨hafter.1, congrArg (Cursors.mk · none) hafter.2.1, hafter.2.2⟩
  | some index =>
    obtain ⟨told, htold, hafter⟩ := hcall (table :: cursors) made (index, s) ⟨rfl, hholds⟩
    refine ⟨told, htold, ?_⟩
    dsimp only [Cursors.onActive]
    rcases hcalled : call (index, s) with ⟨e | tuple, index', s'⟩ <;> rw [hcalled] at hafter
    · exact ⟨congrArg (Cursors.mk _ <| some ·) hafter.1, hafter.2⟩
    · exact ⟨hafter.1, congrArg (Cursors.mk _ <| some ·) hafter.2.1, hafter.2.2⟩

/-! ## Opening -/

theorem openIndexCursor (index : Option Index) :
    Tells (w.atCursor cursors tuples i) (Scan.openIndexCursor E txn index)
      (fun r told => IndexOpened (r.map fun c => c.map w.name) told) fun r made here =>
        match r with
        | .ok index => w.atCursors cursors tuples ⟨i, index.map w.name⟩ made (⟨here.1, index⟩, here.2)
        | .error _ => w.atCursors cursors tuples ⟨i, none⟩ made (⟨here.1, none⟩, here.2) := by
  rintro made ⟨table, s⟩ ⟨rfl, hholds⟩
  unfold Scan.openIndexCursor
  cases index with
  | none =>
    refine ⟨[], .without, ?_⟩
    rw [List.append_nil]
    exact ⟨rfl, hholds⟩
  | some index =>
    obtain ⟨told, htold, hopened⟩ := h.openIndex table index (table :: cursors) tuples made s hholds
    dsimp only
    rcases hopen : E.openIndex txn table index s with ⟨e | c, s'⟩ <;> rw [hopen] at htold hopened
    · refine ⟨told, ?_, rfl, hopened⟩
      rw [htold]
      exact .unopened e
    · obtain ⟨more, hmore, hname, hread⟩ := h.setClusterAccess (table :: cursors) tuples (w.name c) _ (c, s')
        ⟨rfl, hopened⟩
      dsimp only
      rcases haccess : E.setClusterAccess (c, s') with ⟨e | _, c', s''⟩ <;> rw [haccess] at hmore hname hread
      · refine ⟨told ++ (more ++ [.letGo (w.name c)]), ?_, rfl, ?_⟩
        · rw [htold, hmore]
          exact .unreadable _ e
        · have hletGo := h.letGo hread
          rw [hname, List.append_assoc, List.append_assoc] at hletGo
          exact hletGo
      · refine ⟨told ++ more, ?_, rfl, ?_⟩
        · rw [htold, hmore]
          show IndexOpened (.ok (some (w.name c'))) _
          rw [hname]
          exact .opened _
        · rw [List.append_assoc] at hread
          exact hread

/-- **A cursor is locked if there may be writes, then positioned**, and a live tuple is made. -/
theorem start (plan : Plan) (key : Key) (write : Bool) : Tells (w.atCursor cursors tuples i) (Scan.start E plan key write)
    (Guarded i (Worked i false) write) (w.madeTuple cursors tuples i) := by
  unfold Scan.start
  refine h.guarded write ?_ fun _ _ _ hs => hs
  refine (h.position key plan.searchMode).bind (fun _ told htold => ?_) (fun e told htold => htold.error)
    fun _ _ _ hs => hs
  exact (h.readTuple cursors tuples i).weaken fun r more hmore =>
    htold.append htold.not_wrote (.ask .readTuple True.intro hmore)

/-- **Opening a scan releases what it has opened if it fails.** -/
theorem take (plan : Plan) (write : Bool) : Tells (w.idle cursors tuples) (Scan.take E txn plan write)
    (fun r told => Taken plan.target.schema.name write (r.map fun held => w.names held.cursors) told)
    fun r made s => match r with
      | .ok held => w.atHoldings cursors tuples (w.names held.cursors) made (held, s)
      | .error _ => w.idle cursors tuples made s := by
  unfold Scan.take
  refine .ofExcept_bind (fun index _ => ?_) (fun e _ => .unplanned e) fun _ _ _ hs => hs
  refine .ofExcept_bind (fun columns _ => ?_) (fun e _ => .unplanned e) fun _ _ _ hs => hs
  refine .ofExcept_bind (fun key _ => ?_) (fun e _ => .unplanned e) fun _ _ _ hs => hs
  refine (h.openTable plan.target.schema cursors tuples).bind (fun table told htold => ?_) (fun e told htold => ?_)
    fun _ _ _ hs => hs
  · intro made s hs
    subst htold
    obtain ⟨opening, hopening, hopened⟩ := h.openIndexCursor index made (table, s) ⟨rfl, hs⟩
    dsimp only
    rcases hindex : Scan.openIndexCursor E txn index (table, s) with ⟨e | index, table', s'⟩ <;>
      rw [hindex] at hopening hopened
    · obtain ⟨closing, ⟨⟨indexClosed, tableClosed, rfl⟩, -⟩, hclosed⟩ := h.closeCursors _ _ _ hopened
      rw [List.append_assoc] at hclosed
      exact ⟨opening ++ _, .unindexed indexClosed tableClosed hopening, hclosed⟩
    · obtain ⟨work, hwork, hworked⟩ := onReader (fun others => h.start plan key write) _ _ hopened
      dsimp only
      rcases hstart : Cursors.onActive (Scan.start E plan key write) (⟨table', index⟩, s') with ⟨e | tuple, c, s''⟩ <;>
        rw [hstart] at hwork hworked
      · obtain ⟨closing, ⟨⟨indexClosed, tableClosed, rfl⟩, -⟩, hclosed⟩ := h.closeCursors _ _ _ hworked
        rw [List.append_assoc, List.append_assoc] at hclosed
        exact ⟨opening ++ (work ++ _), .unpositioned (n := ⟨w.name table, index.map w.name⟩) indexClosed tableClosed hopening
          hwork, hclosed⟩
      · have hnames : w.names c = ⟨w.name table, index.map w.name⟩ := hworked.2.1
        rw [List.append_assoc] at hworked
        refine ⟨opening ++ work, ?_, ?_⟩
        · show Taken _ write (.ok (w.names c)) (.openTable _ (.ok (w.name table)) :: (opening ++ work))
          rw [hnames]
          exact .taken (n := ⟨w.name table, index.map w.name⟩) hopening hwork
        · show w.atHoldings cursors tuples (w.names c) _ _
          rw [hnames]
          exact hworked
  · rw [htold]
    exact .unopened e

/-! ## Reading -/

omit h in
theorem clear : Tells (w.atRow cursors tuples i) (Tuple.clear : Action (Tuple × κ × σ) Unit)
    fun r told => told = [] ∧ r = .ok () := by
  rintro made ⟨tuple, here⟩ ⟨hlive, hat⟩
  unfold Tuple.clear
  rw [Tuple.setValues_apply, if_neg (Bool.eq_false_iff.1 hlive)]
  refine ⟨[], ⟨rfl, rfl⟩, hlive, ?_⟩
  rw [List.append_nil]
  exact hat

/-- **Reading works on one cursor and writes nothing**, however many rows it passes over. -/
theorem readOn (plan : Plan) : ∀ fuel, Tells (w.atRow cursors tuples i) (Scan.readOn E plan fuel) (Worked i false)
  | 0 => .pure (.silent _)
  | fuel + 1 => by
    -- each step is work that has written nothing, and goes on with what the rest of the loop tells
    refine .state_bind fun ⟨_, here⟩ => ?_
    dsimp only
    split
    · exact .pure (.silent _)
    refine (h.readRow _ _ _).bind (fun _ told htold => ?_) (fun e told htold => .ask .readRow True.intro htold)
      fun _ _ _ hs => hs
    have hread : Worked i false (.ok ()) told := .ask .readRow True.intro htold
    refine Tells.weaken (Q := Worked i false) ?_ fun r more hmore => hread.append hread.not_wrote hmore
    refine .held_bind fun tuple => .ofExcept_bind (fun row _ => ?_) (fun _ _ => .silent _) fun _ _ _ hs => hs
    refine clear.bind (fun _ told htold => ?_) (fun e told htold => by cases htold.2) fun _ _ _ hs => hs
    rw [htold.1]
    split
    · exact .pure (.silent _)
    refine (rowAsked_below (h.advance plan.direction) _ _ _).bind (fun _ told htold => ?_)
      (fun e told htold => .ask .advance True.intro htold) fun _ _ _ hs => hs
    have hmoved : Worked i false (.ok ()) told := .ask .advance True.intro htold
    refine Tells.weaken (Q := Worked i false) ?_ fun r more hmore => hmoved.append hmoved.not_wrote hmore
    split
    · exact .pure (.silent _)
    · exact readOn plan fuel

omit h in
theorem onHoldings (call : Action (Tuple × κ × σ) α) {Q : Except Error α → List (Deed ι) → Prop}
    (hcall : ∀ others, Tells (w.atRow others tuples n.reader) call Q) :
    Tells (w.atHoldings cursors tuples n) (Holdings.onActive call) Q := by
  rintro made ⟨⟨tuple, table, index⟩, s⟩ ⟨hlive, rfl, hholds⟩
  cases index with
  | none =>
    obtain ⟨told, htold, hlive', hname, hafter⟩ := hcall cursors made (tuple, table, s) ⟨hlive, rfl, hholds⟩
    exact ⟨told, htold, hlive', congrArg (Cursors.mk · none) hname, hafter⟩
  | some index =>
    obtain ⟨told, htold, hlive', hname, hafter⟩ := hcall (table :: cursors) made (tuple, index, s) ⟨hlive, rfl, hholds⟩
    exact ⟨told, htold, hlive', congrArg (Cursors.mk _ <| some ·) hname, hafter⟩

/-- **Reading ahead leaves a scan that holds what it held, or nothing.** -/
theorem readAhead (plan : Plan) (held : Holdings κ) :
    Tells (fun made s => w.atHoldings cursors tuples n made (held, s)) (Scan.readAhead E plan held)
      (fun r told => Pulled (some n) (w.left (r.toOption.getD .closed)) (done r) told)
      fun r made s => w.atProgress cursors tuples made (r.toOption.getD .closed, s) := by
  intro made s hs
  obtain ⟨work, hwork, hworked⟩ := onHoldings (n := n) (fun here =>
    Scan.readOn E plan (E.entryBound here.2 + 1) here) (fun others made here hhere =>
      h.readOn plan (E.entryBound here.2 + 1) made here hhere) made (held, s) hs
  unfold Scan.readAhead
  dsimp only
  rcases hread : Holdings.onActive (fun here =>
    Scan.readOn E plan (E.entryBound here.2 + 1) here) (held, s) with ⟨e | row?, held', s'⟩ <;>
    rw [hread] at hwork hworked
  · obtain ⟨ending, ⟨⟨indexClosed, tableClosed, rfl⟩, -⟩, hended⟩ := h.closeHoldings held' _ s' hworked
    rw [List.append_assoc] at hended
    exact ⟨_, .ended indexClosed tableClosed hwork.error, hended⟩
  cases row? with
  | some row =>
    refine ⟨work, ?_, ?_⟩
    · show Pulled (some n) (some (w.names held'.cursors)) _ _
      rw [hworked.2.1]
      exact .on (hwork.map fun _ => ())
    · show w.atHoldings cursors tuples (w.names held'.cursors) _ _
      rw [hworked.2.1]
      exact hworked
  | none =>
    obtain ⟨ending, ⟨⟨indexClosed, tableClosed, rfl⟩, hr⟩, hended⟩ := h.closeHoldings held' _ s' hworked
    rw [List.append_assoc] at hended
    have hended' := Pulled.ended (n := n) indexClosed tableClosed (hwork.map fun _ => ())
    rw [← failure?_verdict, ← hr] at hended'
    dsimp only
    rcases hclose : held'.close E s' with ⟨e | _, s''⟩ <;> rw [hclose] at hended' hended
    · exact ⟨_, hended', hended⟩
    · exact ⟨_, hended', hended⟩

/-- **A scan that could be opened holds all that has been opened for it, or nothing**; one that could not has released
it all. -/
theorem «open» (plan : Plan) (write : Bool) : Tells (w.idle cursors tuples) (Scan.open E txn plan write)
    (fun r told => Opened plan.target.schema.name write (w.left ((r.map Scan.progress).toOption.getD .closed)) (done r) told)
    fun r made s => w.atProgress cursors tuples made ((r.map Scan.progress).toOption.getD .closed, s) := by
  refine (h.take plan write).bind (fun held told htold => ?_) (fun e told htold => .failed htold) fun _ _ _ hs => hs
  refine (h.readAhead plan held).bind (fun progress more hmore => .of_silent ?_ fun _ _ hs => hs) (fun e more hmore => ?_)
    fun _ _ _ hs => hs
  · intro _ _ _
    rw [List.append_nil]
    exact .taken htold hmore
  · exact .taken htold hmore

end Engine.Watched

/-! ## Using a scan -/

/-- What pulls or closes a scan, which is a part of what is at hand. -/
def Watch.Pulls {ω : Type} (w : Watch σ κ ι) (view : ω → Progress κ × σ) (m : Action ω α) : Prop :=
  ∀ cursors tuples made x, w.atProgress cursors tuples made (view x) → ∃ told,
    Pulled (w.left (view x).1) (w.left (view (m x).2).1) (done (m x).1) told ∧
      w.atProgress cursors tuples (made ++ told) (view (m x).2)

/-- All that is held is released. -/
inductive Released : Option (Cursors ι) → List (Deed ι) → Prop
  | nothing : Released none []
  | all {n : Cursors ι} (indexClosed tableClosed : Option Error) : Released (some n) (n.ending indexClosed tableClosed)

namespace Released

variable {before : Option (Cursors ι)} {told : List (Deed ι)}

theorem releases (h : Released before told) : ∀ d ∈ told, d.Releases := by
  cases h with
  | nothing => exact fun d hd => by cases hd
  | all => exact Cursors.releases_ending

/-- To release all is the last that a scan asks for. -/
theorem pulled (h : Released before told) : Pulled before none (verdict told) told := by
  cases h with
  | nothing => exact .rest
  | @all n indexClosed tableClosed =>
    have hended := Pulled.ended (n := n) indexClosed tableClosed (.silent (.ok ()))
    rw [← failure?_verdict] at hended
    cases hverdict : verdict (n.ending indexClosed tableClosed) <;> rw [hverdict] at hended <;> exact hended

end Released

namespace Watch.Pulls

variable {ω : Type} {w : Watch σ κ ι} {view : ω → Progress κ × σ} {m : Action ω α}

theorem of_silent (h : ∀ x, (∃ a, (m x).1 = .ok a) ∧ view (m x).2 = view x) : w.Pulls view m := by
  intro cursors tuples made x hx
  obtain ⟨⟨a, ha⟩, hview⟩ := h x
  rw [ha, hview]
  refine ⟨[], ?_, by rw [List.append_nil]; exact hx⟩
  cases (view x).1 with
  | closed => exact .rest
  | running held row => exact .on (.silent _)

theorem bind {f : α → Action ω β} (hm : w.Pulls view m) (hf : ∀ a, w.Pulls view (f a)) : w.Pulls view (m >>= f) := by
  intro cursors tuples made x hx
  obtain ⟨told, hpulled, hleft⟩ := hm cursors tuples made x hx
  rw [bind_apply]
  rcases hms : m x with ⟨e | a, y⟩ <;> rw [hms] at hpulled hleft
  · exact ⟨told, hpulled, hleft⟩
  · obtain ⟨more, hmore, hleft'⟩ := hf a cursors tuples _ y hleft
    refine ⟨told ++ more, hpulled.trans hmore, ?_⟩
    rw [← List.append_assoc]
    exact hleft'

theorem exhaust {m : Action ω (Option α)} (hm : w.Pulls view m) : ∀ limit, w.Pulls view (Attempt.exhaust m limit)
  | 0 => of_silent fun _ => ⟨⟨_, rfl⟩, rfl⟩
  | limit + 1 => by
    refine hm.bind fun a? => ?_
    cases a? with
    | none => exact of_silent fun _ => ⟨⟨_, rfl⟩, rfl⟩
    | some a => exact (exhaust hm limit).bind fun _ => of_silent fun _ => ⟨⟨_, rfl⟩, rfl⟩

theorem below {m : Action ω α} (hm : w.Pulls view m) :
    w.Pulls (fun x : ρ × ω => view x.2) (Attempt.below m : Action (ρ × ω) α) :=
  fun cursors tuples made x hx => hm cursors tuples made x.2 hx

end Watch.Pulls

/-- A scan and the engine's state, as far as what it asks for depends on them. -/
def Scan.view (here : Scan κ × σ) : Progress κ × σ := (here.1.progress, here.2)

namespace Engine.Watched

variable {E : Engine σ τ κ} {w : Watch σ κ ι} {txn : τ} (h : E.Watched w txn)
include h

/-- **A row is handed out and the next one read.** -/
theorem next : w.Pulls Scan.view (Scan.next E) := by
  rintro cursors tuples made ⟨⟨plan, progress⟩, s⟩ hx
  unfold Scan.next
  cases progress with
  | closed => exact ⟨[], .rest, by rw [List.append_nil]; exact hx⟩
  | running held row =>
    obtain ⟨told, hpulled, hleft⟩ := h.readAhead plan held made s hx
    refine ⟨told, ?_⟩
    dsimp only
    rcases hread : Scan.readAhead E plan held s with ⟨e | progress, s'⟩ <;> rw [hread] at hpulled hleft
    · exact ⟨hpulled, hleft⟩
    · exact ⟨hpulled, hleft⟩

/-- **Closing a scan releases all that it holds**, and the first failure is the answer. -/
theorem closeScan (cursors : List κ) (tuples : Nat) (made : List (Deed ι)) (scan : Scan κ) (s : σ)
    (hx : w.atProgress cursors tuples made (scan.progress, s)) :
    ∃ told, Released (w.left scan.progress) told ∧ (Scan.close E (scan, s)).1 = verdict told ∧
      (Scan.close E (scan, s)).2.1.progress = .closed ∧
        w.holds (made ++ told) cursors tuples (Scan.close E (scan, s)).2.2 := by
  obtain ⟨plan, progress⟩ := scan
  unfold Scan.close
  cases progress with
  | closed =>
    refine ⟨[], .nothing, rfl, rfl, ?_⟩
    rw [List.append_nil]
    exact hx
  | running held row =>
    obtain ⟨told, ⟨⟨indexClosed, tableClosed, rfl⟩, hr⟩, hended⟩ := h.closeHoldings held made s hx
    exact ⟨_, .all indexClosed tableClosed, hr, rfl, hended⟩

theorem close_pulls : w.Pulls Scan.view (Scan.close E) := by
  rintro cursors tuples made ⟨scan, s⟩ hx
  obtain ⟨told, htold, hr, hclosed, hended⟩ := h.closeScan cursors tuples made scan s hx
  refine ⟨told, ?_, ?_⟩
  · unfold Scan.view
    dsimp only
    rw [hclosed, hr, done_unit]
    exact htold.pulled
  · unfold Scan.view
    rw [hclosed]
    exact hended

/-! ## Reading out -/

theorem nextMapped (f : Row → ρ → β × ρ) :
    w.Pulls (fun x : ρ × Scan κ × σ => Scan.view x.2) (Scan.nextMapped E f) := by
  refine (Watch.Pulls.below h.next).bind fun row? => .of_silent fun x => ?_
  cases row? with
  | none => exact ⟨⟨_, rfl⟩, rfl⟩
  | some row => exact ⟨⟨_, rfl⟩, rfl⟩

/-- **A scan is read out and closed.** -/
theorem readOut (f : Row → ρ → β × ρ) (limit : Nat) (cursors : List κ) (tuples : Nat) (made : List (Deed ι))
    (here : ρ × Scan κ × σ) (hx : w.atProgress cursors tuples made (Scan.view here.2)) {r : Except Error Unit}
    {here' : ρ × Scan κ × σ} (hread : (do
      let _ ← Scan.collect E f limit
      (Scan.close E : Action (Scan κ × σ) Unit) : Action (ρ × Scan κ × σ) Unit) here = (r, here')) :
    ∃ told, Pulled (w.left here.2.1.progress) none r told ∧ here'.2.1.progress = .closed ∧
      w.holds (made ++ told) cursors tuples here'.2.2 := by
  obtain ⟨told, hpulled, hleft⟩ := Watch.Pulls.exhaust (h.nextMapped f) limit cursors tuples made here hx
  rw [bind_apply] at hread
  unfold Scan.collect at hread
  rcases hcollect : Attempt.exhaust (Scan.nextMapped E f) limit here with ⟨e | rows, notes, scan, s⟩ <;>
    rw [hcollect] at hpulled hleft hread
  · cases hread
    have hnone := hpulled.after_of_error rfl
    have hclosed : scan.progress = .closed := Watch.left_eq_none hnone
    refine ⟨told, hnone ▸ hpulled, hclosed, ?_⟩
    have hidle : w.atProgress cursors tuples (made ++ told) (scan.progress, s) := hleft
    rw [hclosed] at hidle
    exact hidle
  · obtain ⟨more, hmore, hr, hclosed, hended⟩ := h.closeScan cursors tuples _ scan s hleft
    cases hread
    refine ⟨told ++ more, ?_, hclosed, ?_⟩
    · show Pulled _ none (Scan.close E (scan, s)).1 _
      rw [hr]
      exact hpulled.trans hmore.pulled
    · rw [← List.append_assoc]
      exact hended

/-- **Reading a plan's rows out releases all that it takes.** -/
theorem forEach (plan : Plan) (visit : ρ → Row → ρ) (cursors : List κ) (tuples : Nat) :
    Tells (fun made here => w.idle cursors tuples made here.2) (Scan.forEach E txn plan visit)
      (fun r told => Opened plan.target.schema.name false none r told)
      fun _ made here => w.idle cursors tuples made here.2 := by
  rintro made ⟨notes, s⟩ hs
  obtain ⟨told, hopened, hleft⟩ := h.open plan false made s hs
  unfold Scan.forEach
  dsimp only
  rcases hopen : Scan.open E txn plan false s with ⟨e | scan, s⟩ <;> rw [hopen] at hopened hleft
  · exact ⟨told, hopened, hleft⟩
  dsimp only
  rcases hread : (do
    let _ ← Scan.collect E (fun row notes => ((), visit notes row)) (scan.rowBound E s + 1)
    (Scan.close E : Action (Scan κ × σ) Unit) : Action (ρ × Scan κ × σ) Unit) (notes, scan, s) with
    ⟨r, notes', scan', s'⟩
  obtain ⟨more, hpulled, hclosed, hended⟩ := h.readOut _ _ cursors tuples _ (notes, scan, s) hleft hread
  refine ⟨told ++ more, hopened.trans hpulled, ?_⟩
  show w.holds _ cursors tuples (scan'.letGo E s')
  unfold Scan.letGo Scan.close
  rw [← List.append_assoc]
  dsimp only at hclosed ⊢
  rw [hclosed]
  exact hended

theorem fold (plan : Plan) (f : α → Row → α) (initial : α) (cursors : List κ) (tuples : Nat) :
    Tells (w.idle cursors tuples) (Scan.fold E txn plan f initial)
      fun r told => Opened plan.target.schema.name false none (done r) told := by
  intro made s hs
  obtain ⟨told, hopened, hended⟩ := h.forEach plan f cursors tuples made (initial, s) hs
  refine ⟨told, ?_⟩
  unfold Scan.fold
  rcases hforEach : Scan.forEach E txn plan f (initial, s) with ⟨e | _, a, s⟩ <;> rw [hforEach] at hopened hended
  · exact ⟨hopened, hended⟩
  · exact ⟨hopened, hended⟩

end Engine.Watched

/-! ## Sweeps -/

/-- A mutation asks for nothing, or makes a request. -/
inductive Dispatched (table : String) : Except Error Unit → List (Deed ι) → Prop
  | nothing : Dispatched table (.ok ()) []
  | request {r : Except Error Unit} {told : List (Deed ι)} : Single table true r told → Dispatched table r told

/-- **What a sweep asks for at a row**: a pull of its scan, then the request that it has decided on.  If the request fails
the scan releases all that it holds. -/
inductive Visited (table : String) (before : Option (Cursors ι)) : Option (Cursors ι) → Option (Cursors ι) →
    Except Error Unit → List (Deed ι) → List (Deed ι) → List (Deed ι) → Prop
  | stopped {after : Option (Cursors ι)} {r : Except Error Unit} {told : List (Deed ι)} :
    Pulled before after r told → Visited table before after after r told [] []
  | dispatched {after : Option (Cursors ι)} {told more : List (Deed ι)} :
    Pulled before after (.ok ()) told → Dispatched table (.ok ()) more →
      Visited table before after after (.ok ()) told more []
  | failed {between : Option (Cursors ι)} {e : Error} {told more closing : List (Deed ι)} :
    Pulled before between (.ok ()) told → Dispatched table (.error e) more → Released between closing →
      Visited table before between none (.error e) told more closing

theorem Dispatched.firstError {table : String} {r : Except Error Unit} {told : List (Deed ι)}
    (h : Dispatched table r told) : FirstError r told := by
  cases h with
  | nothing => exact rfl
  | request hsingle => exact hsingle.firstError

/-- **The error of a visit is the first that occurred.** -/
theorem Visited.firstError {table : String} {before between after : Option (Cursors ι)} {r : Except Error Unit}
    {told more closing : List (Deed ι)} (h : Visited table before between after r told more closing) :
    FirstError r (told ++ (more ++ closing)) := by
  cases h with
  | stopped hpulled =>
    rw [List.append_nil, List.append_nil]
    exact hpulled.firstError
  | dispatched hpulled hdispatched =>
    rw [List.append_nil]
    exact .after hpulled.firstError hdispatched.firstError
  | failed hpulled hdispatched hclosing =>
    exact .after hpulled.firstError (hdispatched.firstError.releases hclosing.releases)

theorem Sweep.next_apply (E : Engine σ τ κ) (txn : τ) (decide : Row → ρ → Mutation × ρ) (here : ρ × Scan κ × σ) :
    Sweep.next E txn decide here = match Scan.nextMapped E decide here with
      | (.error e, here) => (.error e, here)
      | (.ok none, here) => (.ok none, here)
      | (.ok (some mutation), (notes, scan, s)) =>
        match mutation.dispatch E txn scan.plan.target.schema s with
        | (.ok _, s) => (.ok (some mutation), (notes, scan, s))
        | (.error e, s) => (.error e, (notes, (Scan.close E (scan, s)).2)) := by
  unfold Sweep.next
  rw [bind_apply]
  rcases Scan.nextMapped E decide here with ⟨e | _ | mutation, notes, scan, s⟩
  · rfl
  · rfl
  dsimp only
  rw [bind_apply]
  dsimp only [Attempt.state]
  rw [bind_apply]
  have houtcome : (liftM (Attempt.outcome (Attempt.below (mutation.dispatch E txn scan.plan.target.schema)) :
      Action (Scan κ × σ) (Except Error Bool)) : Action (ρ × Scan κ × σ) (Except Error Bool)) (notes, scan, s) =
        (.ok (mutation.dispatch E txn scan.plan.target.schema s).1,
          (notes, scan, (mutation.dispatch E txn scan.plan.target.schema s).2)) := rfl
  rw [houtcome]
  rcases mutation.dispatch E txn scan.plan.target.schema s with ⟨e | hit, s'⟩ <;> rfl

theorem Scan.nextMapped_plan (E : Engine σ τ κ) (f : Row → ρ → β × ρ) (here : ρ × Scan κ × σ) :
    (Scan.nextMapped E f here).2.2.1.plan = here.2.1.plan := by
  have hnext : ∀ here : Scan κ × σ, (Scan.next E here).2.1.plan = here.1.plan := by
    rintro ⟨⟨plan, progress⟩, s⟩
    unfold Scan.next
    cases progress with
    | closed => rfl
    | running held row =>
      dsimp only
      rcases Scan.readAhead E plan held s with ⟨e | progress, s'⟩ <;> rfl
  rw [← hnext here.2]
  obtain ⟨notes, here⟩ := here
  unfold Scan.nextMapped
  rw [bind_apply]
  have hbelow : (liftM (Scan.next E) : Action (ρ × Scan κ × σ) (Option Row)) (notes, here) =
      ((Scan.next E here).1, (notes, (Scan.next E here).2)) := rfl
  rw [hbelow]
  rcases Scan.next E here with ⟨e | _ | row, scan, s⟩ <;> rfl

namespace Engine.Watched

variable {E : Engine σ τ κ} {w : Watch σ κ ι} {txn : τ} (h : E.Watched w txn)
include h

theorem dispatch (mutation : Mutation) (schema : TableSchema) (cursors : List κ) (tuples : Nat) :
    Tells (w.idle cursors tuples) (mutation.dispatch E txn schema) fun r told => Dispatched schema.name (done r) told := by
  cases mutation with
  | noOp => exact .pure .nothing
  | upsert row => exact (h.insertOrUpdate row).weaken fun r told htold => .request (htold.map _)
  | delete row => exact (h.delete row).weaken fun r told htold => .request (htold.map _)

/-- The request is made while the scan holds what it holds. -/
theorem dispatchAmid (mutation : Mutation) (schema : TableSchema) (progress : Progress κ) (cursors : List κ) (tuples : Nat) :
    Tells (fun made s => w.atProgress cursors tuples made (progress, s)) (mutation.dispatch E txn schema)
      fun r told => Dispatched schema.name (done r) told := by
  cases progress with
  | closed => exact h.dispatch mutation schema cursors tuples
  | running held row =>
    rintro made s ⟨hlive, hnames, hholds⟩
    obtain ⟨told, htold, hafter⟩ := h.dispatch mutation schema _ _ made s hholds
    exact ⟨told, htold, hlive, hnames, hafter⟩

/-- **A row is visited**, and the scan closed if that fails. -/
theorem visit (decide : Row → ρ → Mutation × ρ) (cursors : List κ) (tuples : Nat) (made : List (Deed ι))
    (here : ρ × Scan κ × σ) (hx : w.atProgress cursors tuples made (Scan.view here.2)) :
    ∃ (between : Progress κ × σ) (s : σ) (told more closing : List (Deed ι)),
      Visited here.2.1.plan.target.schema.name (w.left here.2.1.progress) (w.left between.1)
        (w.left (Sweep.next E txn decide here).2.2.1.progress) (done (Sweep.next E txn decide here).1) told more closing ∧
      w.atProgress cursors tuples (made ++ told) between ∧
      w.atProgress cursors tuples (made ++ (told ++ more)) (between.1, s) ∧
      w.atProgress cursors tuples (made ++ (told ++ (more ++ closing))) (Scan.view (Sweep.next E txn decide here).2.2) := by
  obtain ⟨told, hpulled, hleft⟩ := h.nextMapped decide cursors tuples made here hx
  have hsilent : ∀ {x : Progress κ × σ}, w.atProgress cursors tuples (made ++ told) x →
      w.atProgress cursors tuples (made ++ (told ++ [])) x := fun hx => by
    rw [List.append_nil]
    exact hx
  rw [Sweep.next_apply, ← Scan.nextMapped_plan E decide here]
  rcases hnext : Scan.nextMapped E decide here with ⟨e | _ | mutation, notes, scan, s⟩ <;> rw [hnext] at hpulled hleft
  · exact ⟨_, s, told, [], [], .stopped hpulled, hleft, hsilent hleft, hsilent hleft⟩
  · exact ⟨_, s, told, [], [], .stopped hpulled, hleft, hsilent hleft, hsilent hleft⟩
  obtain ⟨more, hdispatched, hafter⟩ := h.dispatchAmid mutation scan.plan.target.schema scan.progress cursors tuples _ s hleft
  rw [List.append_assoc] at hafter
  dsimp only
  rcases hdispatch : mutation.dispatch E txn scan.plan.target.schema s with ⟨e | hit, s'⟩ <;>
    rw [hdispatch] at hdispatched hafter
  · obtain ⟨closing, hreleased, -, hclosed, hended⟩ := h.closeScan cursors tuples _ scan s' hafter
    rw [List.append_assoc, List.append_assoc] at hended
    refine ⟨(scan.progress, s), s', told, more, closing, ?_, hleft, hafter, ?_⟩
    · dsimp only
      rw [hclosed]
      exact .failed hpulled hdispatched hreleased
    · unfold Scan.view
      dsimp only
      rw [hclosed]
      exact hended
  · refine ⟨(scan.progress, s), s', told, more, [], .dispatched hpulled hdispatched, hleft, hafter, ?_⟩
    rw [List.append_nil]
    exact hafter

end Engine.Watched
end RowStore

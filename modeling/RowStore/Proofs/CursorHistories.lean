import RowStore.Proofs.CursorLogs
import RowStore.Proofs.ScanDeeds

/-!
# The history of a cursor

What a transaction's log says of one cursor is its history.  Requests and scans leave histories of one form: a cursor is
opened; if it belongs to someone who may write, its lock mode is set and it is locked before anything else is done with it;
then it searches, and writes if it is on the table; at last it is closed, once (`Lawful`, `Settled`).
-/
namespace RowStore
namespace Memory

open Attempt

variable {α : Type}

/-! ## Deeds in a history -/

/-- What a log says of a cursor. -/
def historyOf (log : List (Nat × Mark)) (i : Nat) : List Mark := log.filterMap fun e => if e.1 = i then some e.2 else none

theorem historyOf_append (log more : List (Nat × Mark)) (i : Nat) :
    historyOf (log ++ more) i = historyOf log i ++ historyOf more i := List.filterMap_append

theorem historyOf_own (i : Nat) (marks : List Mark) : historyOf (marks.map (i, ·)) i = marks := by
  unfold historyOf
  simp [List.filterMap_map]

theorem historyOf_other {i j : Nat} (h : j ≠ i) (marks : List Mark) : historyOf (marks.map (j, ·)) i = [] := by
  unfold historyOf
  simp [h]

/-- What a call on a cursor logs if it succeeds, unless it closes it. -/
def markOf : Ask → Option Mark
  | .setLockMode mode => some (.lockModeSet mode)
  | .lock mode => some (.locked mode)
  | .search => some .searched
  | .insertRow | .updateRow | .deleteRow => some .wrote
  | _ => none

/-- A cursor's history after a call.  It begins when the cursor is opened, and closing is noted once. -/
def noted (i : Nat) (history : List Mark) : Deed Nat → List Mark
  | .openTable _ (.ok j) => if j = i then [.opened false] else history
  | .openIndex (.ok j) => if j = i then [.opened true] else history
  | .ask j .close _ | .letGo j => if j = i ∧ .closed ∉ history then history ++ [.closed] else history
  | .ask j call none => if j = i then history ++ (markOf call).toList else history
  | _ => history

/-- The histories after some calls. -/
def after (told : List (Deed Nat)) (histories : Nat → List Mark) (i : Nat) : List Mark := told.foldl (noted i) (histories i)

/-- The cursors that some calls have opened. -/
def openings (told : List (Deed Nat)) : List Nat := told.filterMap fun
  | .openTable _ (.ok i) | .openIndex (.ok i) => some i
  | _ => none

variable {told more : List (Deed Nat)} {histories : Nat → List Mark} {i j : Nat}

theorem after_append : after (told ++ more) histories = after more (after told histories) := by
  funext i
  exact List.foldl_append

theorem openings_append : openings (told ++ more) = openings told ++ openings more := List.filterMap_append

/-! ## Forms of histories -/

/-- What comes first in the history of a cursor of someone who may write. -/
def locks (write : Bool) : List Mark := if write then [.lockModeSet .intentionExclusive, .locked .exclusive] else []

/-- What work on a cursor adds to its history. -/
def Used (write : Bool) (marks : List Mark) : Prop := ∀ m ∈ marks, m = .searched ∨ (m = .wrote ∧ write = true)

/-- A cursor is locked before it is used. -/
def LockedFirst (write use : Bool) (marks : List Mark) : Prop := ∃ rest, marks = locks write ++ rest ∧ Used use rest

/-- **A cursor is used lawfully**: it is locked first by someone who may write, and not used at all unless that succeeds. -/
def Lawful (write use : Bool) (marks : List Mark) : Prop :=
  marks = [] ∨ (write = true ∧ marks = [.lockModeSet .intentionExclusive]) ∨ LockedFirst write use marks

/-- **A cursor has been opened, used lawfully, and closed.**  Only on the table are there writes. -/
def Settled (write : Bool) (history : List Mark) : Prop :=
  ∃ onIndex marks, history = .opened onIndex :: (marks ++ [.closed]) ∧ Lawful write (write && !onIndex) marks

/-- A cursor has been opened and used lawfully, and not been closed. -/
def StillOpen (write : Bool) (history : List Mark) : Prop :=
  ∃ onIndex marks, history = .opened onIndex :: marks ∧ Lawful write (write && !onIndex) marks

/-- A cursor is read through: it has been opened and locked, and has only searched. -/
def Reading (write : Bool) (history : List Mark) : Prop :=
  ∃ onIndex marks, history = .opened onIndex :: marks ∧ LockedFirst write false marks

/-- The cursors of a scan: one is read through, and the one on the table has otherwise only been opened. -/
structure Serving (n : Cursors Nat) (write : Bool) (histories : Nat → List Mark) : Prop where
  reading : Reading write (histories n.reader)
  table : ∀ i, n.index = some i → i ≠ n.table ∧ histories n.table = [.opened false]

namespace Used

variable {use : Bool} {marks rest : List Mark}

theorem append (h : Used use marks) (hrest : Used use rest) : Used use (marks ++ rest) :=
  List.forall_mem_append.2 ⟨h, hrest⟩

theorem mono (h : Used false marks) : Used use marks := fun m hm => .inl ((h m hm).elim id fun hw => (by cases hw.2))

end Used

theorem LockedFirst.append {write use : Bool} {marks rest : List Mark} (h : LockedFirst write use marks)
    (hrest : Used use rest) : LockedFirst write use (marks ++ rest) := by
  obtain ⟨before, rfl, hbefore⟩ := h
  exact ⟨before ++ rest, List.append_assoc .., hbefore.append hrest⟩

theorem Lawful.mono {write use : Bool} {marks : List Mark} (h : Lawful write false marks) : Lawful write use marks := by
  rcases h with h | h | ⟨rest, hmarks, hrest⟩
  · exact .inl h
  · exact .inr (.inl h)
  · exact .inr (.inr ⟨rest, hmarks, hrest.mono⟩)

theorem Lawful.not_closed {write use : Bool} {marks : List Mark} (h : Lawful write use marks) : .closed ∉ marks := by
  intro hmem
  rcases h with rfl | ⟨-, rfl⟩ | ⟨rest, rfl, hrest⟩
  · cases hmem
  · simp at hmem
  · rcases List.mem_append.1 hmem with hmem | hmem
    · unfold locks at hmem
      cases write <;> simp at hmem
    · rcases hrest _ hmem with h | h
      · cases h
      · cases h.1

theorem Reading.stillOpen {write : Bool} {history : List Mark} (h : Reading write history) : StillOpen write history := by
  obtain ⟨onIndex, marks, rfl, hmarks⟩ := h
  exact ⟨onIndex, marks, rfl, Lawful.mono (.inr (.inr hmarks))⟩

namespace StillOpen

theorem unused (write onIndex : Bool) : StillOpen write [.opened onIndex] := ⟨onIndex, [], rfl, .inl rfl⟩

variable {write : Bool} {history : List Mark}

theorem not_closed (h : StillOpen write history) : .closed ∉ history := by
  obtain ⟨onIndex, marks, rfl, hmarks⟩ := h
  exact fun hmem => (List.mem_cons.1 hmem).elim (fun hc => by cases hc) hmarks.not_closed

theorem settled (h : StillOpen write history) : Settled write (history ++ [.closed]) := by
  obtain ⟨onIndex, marks, rfl, hmarks⟩ := h
  exact ⟨onIndex, marks, rfl, hmarks⟩

end StillOpen

/-! ## Work -/

theorem used_markOf {write : Bool} : ∀ {call : Ask}, call.Works write → Used write (markOf call).toList
  | .search, _ => List.forall_mem_singleton.2 (.inl rfl)
  | .insertRow, h | .updateRow, h | .deleteRow, h => List.forall_mem_singleton.2 (.inr ⟨rfl, h⟩)
  | .setClusterAccess, _ | .searchTuple, _ | .readTuple, _ | .readRow, _ | .advance, _ => fun _ hm => by cases hm

theorem noted_ask {call : Ask} (hcall : call ≠ .close) (i : Nat) (history : List Mark) :
    noted i history (.ask i call none) = history ++ (markOf call).toList := by
  cases call with
  | close => exact absurd rfl hcall
  | _ => exact if_pos rfl

theorem noted_failed {call : Ask} (hcall : call ≠ .close) (i j : Nat) (history : List Mark) (e : Error) :
    noted i history (.ask j call (some e)) = history := by
  cases call with
  | close => exact absurd rfl hcall
  | _ => rfl

theorem noted_worksOn {write : Bool} {d : Deed Nat} (h : d.WorksOn i write) (history : List Mark) :
    ∃ rest, noted i history d = history ++ rest ∧ Used write rest := by
  cases d with
  | ask j call failure =>
    obtain ⟨rfl, hworks⟩ := h
    have hcall : call ≠ .close := fun hc => by
      subst hc
      exact hworks
    cases failure with
    | none => exact ⟨_, noted_ask hcall j history, used_markOf hworks⟩
    | some e =>
      rw [noted_failed hcall]
      exact ⟨[], (List.append_nil _).symm, fun _ hm => by cases hm⟩
  | tupleReleased => exact ⟨[], (List.append_nil _).symm, fun _ hm => by cases hm⟩
  | openTable | openIndex | letGo => exact h.elim

/-- **Work on a cursor adds searches to its history, and writes if it may write.** -/
theorem foldl_worksOn {write : Bool} : ∀ {told : List (Deed Nat)}, (∀ d ∈ told, d.WorksOn i write) →
    ∀ history, ∃ rest, told.foldl (noted i) history = history ++ rest ∧ Used write rest
  | [], _, history => ⟨[], (List.append_nil _).symm, fun _ hm => by cases hm⟩
  | d :: told, h, history => by
    obtain ⟨rest, hnoted, hrest⟩ := noted_worksOn (h d List.mem_cons_self) history
    obtain ⟨more, hmore, hused⟩ := foldl_worksOn (fun d hd => h d (List.mem_cons_of_mem _ hd)) (noted i history d)
    refine ⟨rest ++ more, ?_, hrest.append hused⟩
    rw [List.foldl_cons, hmore, hnoted, List.append_assoc]

theorem foldl_worksOn_other {write : Bool} (hne : i ≠ j) : ∀ {told : List (Deed Nat)}, (∀ d ∈ told, d.WorksOn i write) →
    ∀ history, told.foldl (noted j) history = history
  | [], _, _ => rfl
  | d :: told, h, history => by
    rw [List.foldl_cons]
    have hd : noted j history d = history := by
      have hworks := h d List.mem_cons_self
      cases d with
      | ask k call failure =>
        obtain ⟨rfl, hworks⟩ := hworks
        cases call <;> cases failure <;> simp [noted, hne]
      | tupleReleased => rfl
      | openTable | openIndex | letGo => exact hworks.elim
    rw [hd]
    exact foldl_worksOn_other hne (fun d hd => h d (List.mem_cons_of_mem _ hd)) history

/-- **Guarded work comes behind the locks.** -/
theorem foldl_guarded {write use : Bool} {r : Except Error α} (h : Guarded i (Worked i use) write r told)
    (history : List Mark) : ∃ marks, told.foldl (noted i) history = history ++ marks ∧ Lawful write use marks ∧
      ((∃ a, r = .ok a) → LockedFirst write use marks) := by
  cases h with
  | free hwork =>
    obtain ⟨rest, hrest, hused⟩ := foldl_worksOn hwork.works history
    exact ⟨rest, hrest, .inr (.inr ⟨rest, rfl, hused⟩), fun _ => ⟨rest, rfl, hused⟩⟩
  | unannounced e => exact ⟨[], (List.append_nil _).symm, .inl rfl, fun ⟨_, hr⟩ => by cases hr⟩
  | unlocked e =>
    refine ⟨[.lockModeSet .intentionExclusive], ?_, .inr (.inl ⟨rfl, rfl⟩), fun ⟨_, hr⟩ => by cases hr⟩
    exact noted_ask (show Ask.setLockMode .intentionExclusive ≠ .close by decide) i history
  | @locked _ told hwork =>
    obtain ⟨rest, hrest, hused⟩ := foldl_worksOn hwork.works
      (history ++ [.lockModeSet .intentionExclusive] ++ [.locked .exclusive])
    refine ⟨locks true ++ rest, ?_, .inr (.inr ⟨rest, rfl, hused⟩), fun _ => ⟨rest, rfl, hused⟩⟩
    rw [List.foldl_cons, List.foldl_cons, noted_ask (by decide), noted_ask (by decide)]
    refine hrest.trans ?_
    rw [List.append_assoc, List.append_assoc]
    rfl

theorem foldl_guarded_other {write use : Bool} {r : Except Error α} (hne : i ≠ j)
    (h : Guarded i (Worked i use) write r told) (history : List Mark) : told.foldl (noted j) history = history := by
  cases h with
  | free hwork => exact foldl_worksOn_other hne hwork.works history
  | unannounced e => rfl
  | unlocked e => simp [noted, hne]
  | locked hwork =>
    rw [List.foldl_cons, List.foldl_cons, foldl_worksOn_other hne hwork.works]
    simp [noted, hne]

theorem openings_worksOn {write : Bool} (h : ∀ d ∈ told, d.WorksOn i write) : openings told = [] :=
  List.filterMap_eq_nil_iff.2 fun d hd => by
    have hworks := h d hd
    cases d with
    | ask | tupleReleased => rfl
    | openTable | openIndex | letGo => exact hworks.elim

theorem openings_guarded {write use : Bool} {r : Except Error α} (h : Guarded i (Worked i use) write r told) :
    openings told = [] := by
  cases h with
  | free hwork => exact openings_worksOn hwork.works
  | unannounced e | unlocked e => rfl
  | @locked _ told hwork =>
    show openings told = []
    exact openings_worksOn hwork.works

/-! ## Requests -/

theorem noted_close_self {history : List Mark} (h : .closed ∉ history) (closed : Option Error) :
    noted i history (.ask i .close closed) = history ++ [.closed] := if_pos ⟨rfl, h⟩

theorem noted_letGo_closed {history : List Mark} (h : .closed ∈ history) : noted i history (.letGo i) = history :=
  if_neg fun hc => hc.2 h

/-- A cursor that is closed and let go of is closed once. -/
theorem foldl_close {history : List Mark} (h : .closed ∉ history) (closed : Option Error) :
    [Deed.ask i .close closed, .letGo i].foldl (noted i) history = history ++ [.closed] := by
  rw [List.foldl_cons, noted_close_self h, List.foldl_cons, noted_letGo_closed (by simp)]
  rfl

theorem foldl_close_other (hne : i ≠ j) (history : List Mark) (closed : Option Error) :
    [Deed.ask i .close closed, .letGo i].foldl (noted j) history = history := by
  simp [noted, hne]

/-- **A request fails without a cursor, or opens one, which is settled then**, and says nothing of others. -/
theorem history_single {write : Bool} {table : String} {r : Except Error α} (h : Single table write r told) :
    (∃ e, r = .error e) ∧ openings told = [] ∧ (∀ j history, told.foldl (noted j) history = history) ∨
      ∃ i, openings told = [i] ∧ (∀ history, Settled write (told.foldl (noted i) history)) ∧
        ∀ j, j ≠ i → ∀ history, told.foldl (noted j) history = history := by
  cases h with
  | unopened e => exact .inl ⟨⟨e, rfl⟩, rfl, fun _ _ => rfl⟩
  | @opened i r work closed hwork =>
    refine .inr ⟨i, ?_, fun history => ?_, fun j hj history => ?_⟩
    · show i :: openings (work ++ [.ask i .close closed, .letGo i]) = [i]
      rw [openings_append, openings_guarded hwork]
      rfl
    · obtain ⟨marks, hmarks, hlawful, -⟩ := foldl_guarded hwork [.opened false]
      rw [List.foldl_cons, List.foldl_append]
      show Settled write ([Deed.ask i .close closed, .letGo i].foldl (noted i)
        (work.foldl (noted i) (if i = i then [.opened false] else history)))
      rw [if_pos rfl, hmarks, foldl_close (by simpa using hlawful.not_closed)]
      exact ⟨false, marks, rfl, by simpa using hlawful⟩
    · rw [List.foldl_cons, List.foldl_append]
      show [Deed.ask i .close closed, .letGo i].foldl (noted j)
        (work.foldl (noted j) (if i = j then [.opened false] else history)) = history
      rw [if_neg hj.symm, foldl_guarded_other hj.symm hwork, foldl_close_other hj.symm]

/-! ## Scans -/

theorem reader_of_some {n : Cursors Nat} (h : n.index = some i) : n.reader = i := by
  unfold Cursors.reader
  rw [h]
  rfl

theorem reader_of_none {n : Cursors Nat} (h : n.index = none) : n.reader = n.table := by
  unfold Cursors.reader
  rw [h]
  rfl

/-- All cursors of a scan are settled. -/
def AllSettled (n : Cursors Nat) (write : Bool) (histories : Nat → List Mark) : Prop :=
  Settled write (histories n.reader) ∧ Settled write (histories n.table)

variable {n : Cursors Nat} {write : Bool}

/-- **Cursors that are closed are settled**, the one on the index and the one on the table. -/
theorem settled_closing (hreader : StillOpen write (histories n.reader)) (htable : StillOpen write (histories n.table))
    (hdistinct : ∀ i, n.index = some i → i ≠ n.table) (indexClosed tableClosed : Option Error) :
    AllSettled n write (after (n.closing indexClosed tableClosed) histories) := by
  obtain ⟨table, index⟩ := n
  cases index with
  | none =>
    have hclosed : after (Cursors.closing ⟨table, none⟩ indexClosed tableClosed) histories table =
        histories table ++ [.closed] := foldl_close htable.not_closed tableClosed
    have hsettled : Settled write (after (Cursors.closing ⟨table, none⟩ indexClosed tableClosed) histories table) := by
      rw [hclosed]
      exact htable.settled
    exact ⟨hsettled, hsettled⟩
  | some index =>
    have hne : index ≠ table := hdistinct index rfl
    have hopen : .closed ∉ histories index := hreader.not_closed
    have hindex : after (Cursors.closing ⟨table, some index⟩ indexClosed tableClosed) histories index =
        histories index ++ [.closed] := by
      simp [after, Cursors.closing, noted, hopen, hne.symm]
    have htable' : after (Cursors.closing ⟨table, some index⟩ indexClosed tableClosed) histories table =
        histories table ++ [.closed] := by
      simp [after, Cursors.closing, noted, htable.not_closed, hne]
    refine ⟨?_, ?_⟩
    · show Settled write (after _ histories index)
      rw [hindex]
      exact hreader.settled
    · rw [htable']
      exact htable.settled

namespace Serving

theorem tableOpen (h : Serving n write histories) : StillOpen write (histories n.table) := by
  cases hindex : n.index with
  | none => exact reader_of_none hindex ▸ h.reading.stillOpen
  | some i =>
    rw [(h.table i hindex).2]
    exact .unused write false

/-- **What a scan releases is settled.** -/
theorem ending (h : Serving n write histories) (indexClosed tableClosed : Option Error) :
    AllSettled n write (after (n.ending indexClosed tableClosed) histories) :=
  settled_closing h.reading.stillOpen h.tableOpen (fun i hi => (h.table i hi).1) indexClosed tableClosed

theorem worked {r : Except Error α} (h : Serving n write histories) (hwork : Worked n.reader false r told) :
    Serving n write (after told histories) := by
  obtain ⟨onIndex, marks, hopened, hmarks⟩ := h.reading
  obtain ⟨rest, hrest, hused⟩ := foldl_worksOn hwork.works (histories n.reader)
  refine ⟨⟨onIndex, marks ++ rest, hrest.trans (by rw [hopened]; rfl), hmarks.append hused⟩, fun i hi => ?_⟩
  obtain ⟨hne, htable⟩ := h.table i hi
  refine ⟨hne, ?_⟩
  rw [reader_of_some hi] at hwork
  exact (foldl_worksOn_other hne hwork.works _).trans htable

theorem pulled {left : Option (Cursors Nat)} {r : Except Error Unit} (h : Serving n write histories)
    (hpulled : Pulled (some n) left r told) :
    left = some n ∧ Serving n write (after told histories) ∨ left = none ∧ AllSettled n write (after told histories) := by
  cases hpulled with
  | on hwork => exact .inl ⟨rfl, h.worked hwork⟩
  | ended indexClosed tableClosed hwork =>
    rw [after_append]
    exact .inr ⟨rfl, (h.worked hwork).ending indexClosed tableClosed⟩

end Serving

variable {table : String} {opening work : List (Deed Nat)}

theorem after_opening (table : String) (histories : Nat → List Mark)
    (hopening : IndexOpened (.ok n.index) opening) (hdistinct : ∀ i, n.index = some i → i ≠ n.table) :
    after (.openTable table (.ok n.table) :: opening) histories n.reader = [.opened n.index.isSome] ∧
      after (.openTable table (.ok n.table) :: opening) histories n.table = [.opened false] := by
  obtain ⟨t, index⟩ := n
  cases hopening with
  | without => exact ⟨if_pos rfl, if_pos rfl⟩
  | opened i =>
    have hne : i ≠ t := hdistinct i rfl
    refine ⟨?_, ?_⟩
    · show after _ histories i = _
      simp [after, noted, markOf]
    · simp [after, noted, hne]

theorem openings_opening (hopening : IndexOpened (.ok n.index) opening) :
    openings (.openTable table (.ok n.table) :: opening) = n.table :: n.index.toList := by
  obtain ⟨t, index⟩ := n
  cases hopening <;> rfl

/-- **Guarded work on what has just been opened** is lawful, and leaves the cursors serving if it succeeds. -/
theorem after_positioning (table : String) (histories : Nat → List Mark) {r : Except Error Tuple}
    (hopening : IndexOpened (.ok n.index) opening)
    (hwork : Guarded n.reader (Worked n.reader false) write r work) (hdistinct : ∀ i, n.index = some i → i ≠ n.table) :
    StillOpen write (after (.openTable table (.ok n.table) :: (opening ++ work)) histories n.reader) ∧
      StillOpen write (after (.openTable table (.ok n.table) :: (opening ++ work)) histories n.table) ∧
        ((∃ a, r = .ok a) → Serving n write (after (.openTable table (.ok n.table) :: (opening ++ work)) histories)) := by
  obtain ⟨hreader, htable⟩ := after_opening table histories hopening hdistinct
  rw [← List.cons_append, after_append]
  generalize after (.openTable table (.ok n.table) :: opening) histories = histories' at hreader htable
  obtain ⟨marks, hmarks, hlawful, hlocked⟩ := foldl_guarded hwork (histories' n.reader)
  have hstill : StillOpen write (after work histories' n.reader) := by
    refine ⟨n.index.isSome, marks, hmarks.trans (by rw [hreader]; rfl), hlawful.mono⟩
  have hother : ∀ i, n.index = some i → after work histories' n.table = [.opened false] := fun i hi =>
    (foldl_guarded_other (reader_of_some hi ▸ hdistinct i hi) hwork _).trans htable
  refine ⟨hstill, ?_, fun hr => ⟨⟨n.index.isSome, marks, hmarks.trans (by rw [hreader]; rfl), hlocked hr⟩,
    fun i hi => ⟨hdistinct i hi, hother i hi⟩⟩⟩
  cases hindex : n.index with
  | none => exact reader_of_none hindex ▸ hstill
  | some i =>
    rw [hother i hindex]
    exact .unused write false

theorem openings_closing (n : Cursors Nat) (indexClosed tableClosed : Option Error) :
    openings (n.closing indexClosed tableClosed) = [] := by
  unfold Cursors.closing
  cases n.index <;> rfl

theorem openings_pulled {left left' : Option (Cursors Nat)} {r : Except Error Unit} (h : Pulled left left' r told) :
    openings told = [] := by
  cases h with
  | rest => rfl
  | on hwork => exact openings_worksOn hwork.works
  | ended indexClosed tableClosed hwork =>
    rw [openings_append, openings_worksOn hwork.works]
    exact openings_closing _ indexClosed tableClosed

theorem distinct_of_nodup (h : (n.table :: n.index.toList).Nodup) : ∀ i, n.index = some i → i ≠ n.table := fun i hi hne =>
  (List.nodup_cons.1 h).1 (by rw [hi, hne]; exact List.mem_singleton.2 rfl)

/-- **A scan that has been opened stands.** -/
theorem serving_taken (histories : Nat → List Mark) (h : Taken table write (.ok n) told) (hnodup : (openings told).Nodup) :
    openings told = n.table :: n.index.toList ∧ Serving n write (after told histories) := by
  cases h with
  | @taken _ tuple opening work hopening hwork =>
    have hopenings : openings (.openTable table (.ok n.table) :: (opening ++ work)) = n.table :: n.index.toList := by
      rw [← List.cons_append, openings_append, openings_opening hopening, openings_guarded hwork, List.append_nil]
    rw [hopenings] at hnodup
    exact ⟨hopenings, (after_positioning table histories hopening hwork (distinct_of_nodup hnodup)).2.2 ⟨tuple, rfl⟩⟩

/-- **What has been opened for a scan in vain is settled.** -/
theorem settled_taken {e : Error} (h : Taken table write (.error e) told) (hnodup : (openings told).Nodup) :
    ∀ i ∈ openings told, Settled write (after told histories i) := by
  cases h with
  | unplanned | unopened => exact fun i hi => by cases hi
  | @unindexed t _ opening indexClosed tableClosed hopening =>
    cases hopening with
    | unopened =>
      intro i hi
      cases List.mem_singleton.1 (show i ∈ [t] from hi)
      have hhistory : after (.openTable table (.ok t) :: ([.openIndex (.error e)] ++
          Cursors.closing ⟨t, none⟩ indexClosed tableClosed)) histories t = [.opened false, .closed] := by
        simp [after, noted, Cursors.closing]
      exact hhistory ▸ (StillOpen.unused write false).settled
    | unreadable i =>
      have hne : t ≠ i := by simpa [openings, Cursors.closing] using hnodup
      have htable : after (.openTable table (.ok t) :: ([.openIndex (.ok i), .ask i .setClusterAccess (some e), .letGo i] ++
          Cursors.closing ⟨t, none⟩ indexClosed tableClosed)) histories t = [.opened false, .closed] := by
        simp [after, noted, Cursors.closing, hne.symm]
      have hindex : after (.openTable table (.ok t) :: ([.openIndex (.ok i), .ask i .setClusterAccess (some e), .letGo i] ++
          Cursors.closing ⟨t, none⟩ indexClosed tableClosed)) histories i = [.opened true, .closed] := by
        simp [after, noted, Cursors.closing, hne]
      intro j hj
      rcases List.mem_cons.1 (show j ∈ [t, i] from hj) with rfl | hj
      · exact htable ▸ (StillOpen.unused write false).settled
      · cases List.mem_singleton.1 hj
        exact hindex ▸ (StillOpen.unused write true).settled
  | @unpositioned n _ opening work indexClosed tableClosed hopening hwork =>
    have hopenings : openings (.openTable table (.ok n.table) :: (opening ++ (work ++ n.closing indexClosed tableClosed))) =
        n.table :: n.index.toList := by
      rw [← List.cons_append, openings_append, openings_opening hopening, openings_append, openings_guarded hwork,
        openings_closing, List.append_nil, List.append_nil]
    rw [hopenings] at hnodup ⊢
    obtain ⟨hreader, htable, -⟩ := after_positioning table histories hopening hwork
      (distinct_of_nodup hnodup)
    have hsettled := settled_closing hreader htable (distinct_of_nodup hnodup) indexClosed tableClosed
    rw [← after_append, List.cons_append, List.append_assoc] at hsettled
    intro i hi
    rcases List.mem_cons.1 hi with rfl | hi
    · exact hsettled.2
    · exact reader_of_some (Option.mem_toList.1 hi) ▸ hsettled.1

/-- **A scan that is opened and pulled stands, or all that was opened is settled.** -/
theorem history_opened (histories : Nat → List Mark) {left : Option (Cursors Nat)} {r : Except Error Unit}
    (h : Opened table write left r told) (hnodup : (openings told).Nodup) :
    (∃ n, left = some n ∧ openings told = n.table :: n.index.toList ∧ Serving n write (after told histories)) ∨
      left = none ∧ ∀ i ∈ openings told, Settled write (after told histories i) := by
  cases h with
  | failed htaken => exact .inr ⟨rfl, settled_taken htaken hnodup⟩
  | @taken n _ _ told more htaken hpulled =>
    rw [openings_append, openings_pulled hpulled, List.append_nil] at hnodup ⊢
    obtain ⟨hopenings, hserving⟩ := serving_taken histories htaken hnodup
    rw [after_append, hopenings]
    rcases hserving.pulled hpulled with ⟨hleft, hstands⟩ | ⟨hleft, hsettled⟩
    · exact .inl ⟨n, hleft, rfl, hstands⟩
    · refine .inr ⟨hleft, fun i hi => ?_⟩
      rcases List.mem_cons.1 hi with rfl | hi
      · exact hsettled.2
      · exact reader_of_some (Option.mem_toList.1 hi) ▸ hsettled.1

/-! ## Sweeps -/

theorem mem_reader (n : Cursors Nat) : n.reader ∈ n.list := by
  obtain ⟨t, _ | i⟩ := n
  · exact List.mem_singleton.2 rfl
  · exact List.mem_cons_self

theorem mem_table (n : Cursors Nat) : n.table ∈ n.list := List.mem_append_right _ (List.mem_singleton.2 rfl)

theorem eq_of_mem_list (h : i ∈ n.list) : i = n.reader ∨ i = n.table := by
  obtain ⟨t, _ | j⟩ := n
  · exact .inr (List.mem_singleton.1 h)
  · exact (List.mem_cons.1 h).imp id List.mem_singleton.1

theorem AllSettled.settled (h : AllSettled n write histories) (hi : i ∈ n.list) : Settled write (histories i) := by
  rcases eq_of_mem_list hi with rfl | rfl
  · exact h.1
  · exact h.2

theorem Serving.congr {histories' : Nat → List Mark} (h : Serving n write histories)
    (heq : ∀ i ∈ n.list, histories' i = histories i) : Serving n write histories' where
  reading := heq _ (mem_reader n) ▸ h.reading
  table i hi := heq _ (mem_table n) ▸ h.table i hi

/-- **How a scan has fared**: it holds what it held, and stands, or it holds nothing, and what it held is settled. -/
def Fared (before left : Option (Cursors Nat)) (write : Bool) (histories : Nat → List Mark) : Prop :=
  left = before ∧ (∀ n, before = some n → Serving n write histories) ∨
    left = none ∧ ∀ n, before = some n → AllSettled n write histories

variable {before between left : Option (Cursors Nat)}

namespace Fared

theorem serving (h : Fared before left write histories) (hn : left = some n) : Serving n write histories := by
  rcases h with ⟨hsame, hserving⟩ | ⟨hnone, -⟩
  · exact hserving n (hsame ▸ hn)
  · cases hnone.symm.trans hn

theorem congr {histories' : Nat → List Mark} (h : Fared before left write histories)
    (heq : ∀ n, before = some n → ∀ i ∈ n.list, histories' i = histories i) : Fared before left write histories' := by
  rcases h with ⟨hleft, hstands⟩ | ⟨hleft, hsettled⟩
  · exact .inl ⟨hleft, fun n hn => (hstands n hn).congr (heq n hn)⟩
  · refine .inr ⟨hleft, fun n hn => ⟨?_, ?_⟩⟩
    · rw [heq n hn _ (mem_reader n)]
      exact (hsettled n hn).1
    · rw [heq n hn _ (mem_table n)]
      exact (hsettled n hn).2

/-- **A scan that is pulled stands, or is settled**, if it stood. -/
theorem pulled {r : Except Error Unit} (h : ∀ n, before = some n → Serving n write histories)
    (hpulled : Pulled before left r told) : Fared before left write (after told histories) := by
  cases before with
  | none =>
    obtain ⟨rfl, -, -⟩ := hpulled.of_none
    exact .inl ⟨rfl, fun n hn => by cases hn⟩
  | some n =>
    rcases (h n rfl).pulled hpulled with ⟨hleft, hstands⟩ | ⟨hleft, hsettled⟩
    · refine .inl ⟨hleft, fun n' hn' => ?_⟩
      cases hn'
      exact hstands
    · refine .inr ⟨hleft, fun n' hn' => ?_⟩
      cases hn'
      exact hsettled

/-- So is one that is closed then. -/
theorem released (h : Fared before between write histories) (hreleased : Released between told) :
    Fared before none write (after told histories) := by
  rcases h with ⟨rfl, hstands⟩ | ⟨rfl, hsettled⟩
  · rcases pulled hstands hreleased.pulled with ⟨hleft, hstands'⟩ | ⟨hleft, hsettled'⟩
    · exact .inl ⟨hleft, hstands'⟩
    · exact .inr ⟨hleft, hsettled'⟩
  · cases hreleased
    exact .inr ⟨rfl, hsettled⟩

end Fared

/-- **A mutation settles the cursor that it opens**, and says nothing of others. -/
theorem history_dispatched {r : Except Error Unit} (h : Dispatched table r told) :
    (∀ i ∈ openings told, ∀ history, Settled true (told.foldl (noted i) history)) ∧
      ∀ i, i ∉ openings told → ∀ history, told.foldl (noted i) history = history := by
  cases h with
  | nothing => exact ⟨fun _ hi => (by cases hi), fun _ _ _ => rfl⟩
  | request hsingle =>
    rcases history_single hsingle with ⟨-, hopen, hsame⟩ | ⟨i, hopen, hsettled, hothers⟩
    · rw [hopen]
      exact ⟨fun _ hi => (by cases hi), fun i _ => hsame i⟩
    · rw [hopen]
      refine ⟨fun j hj => ?_, fun j hj => hothers j fun heq => hj (List.mem_singleton.2 heq)⟩
      rw [List.mem_singleton.1 hj]
      exact hsettled

theorem foldl_released_other (h : Released before told) (hi : ∀ n, before = some n → i ∉ n.list) (history : List Mark) :
    told.foldl (noted i) history = history := by
  cases h with
  | nothing => rfl
  | @all n indexClosed tableClosed =>
    have hother := hi n rfl
    obtain ⟨t, _ | index⟩ := n
    · have ht : t ≠ i := fun heq => hother (heq ▸ mem_table _)
      simp [Cursors.ending, Cursors.closing, noted, ht]
    · have ht : t ≠ i := fun heq => hother (heq ▸ mem_table _)
      have hindex : index ≠ i := fun heq => hother (heq ▸ mem_reader ⟨t, some index⟩)
      simp [Cursors.ending, Cursors.closing, noted, ht, hindex]

theorem openings_released (h : Released before told) : openings told = [] := by
  cases h with
  | nothing => rfl
  | all indexClosed tableClosed => exact openings_closing _ indexClosed tableClosed

/-- The only cursor that is opened at a visit is that of its request. -/
theorem openings_visited {r : Except Error Unit} {closing : List (Deed Nat)}
    (h : Visited table before between left r told more closing) :
    openings (told ++ (more ++ closing)) = openings more := by
  cases h with
  | stopped hpulled =>
    rw [List.append_nil, List.append_nil]
    exact openings_pulled hpulled
  | dispatched hpulled hdispatched => rw [List.append_nil, openings_append, openings_pulled hpulled, List.nil_append]
  | failed hpulled hdispatched hreleased =>
    rw [openings_append, openings_pulled hpulled, openings_append, openings_released hreleased, List.append_nil,
      List.nil_append]

/-- **A visit settles the cursor of its request**, and its scan stands or is settled. -/
theorem history_visited {r : Except Error Unit} {closing : List (Deed Nat)}
    (h : ∀ n, before = some n → Serving n write histories)
    (hvisited : Visited table before between left r told more closing)
    (hnew : ∀ n, before = some n → ∀ i ∈ n.list, i ∉ openings more) :
    Fared before left write (after (told ++ (more ++ closing)) histories) ∧
      ∀ i ∈ openings more, Settled true (after (told ++ (more ++ closing)) histories i) := by
  cases hvisited with
  | stopped hpulled =>
    rw [List.append_nil, List.append_nil]
    exact ⟨.pulled h hpulled, fun _ hi => by cases hi⟩
  | dispatched hpulled hdispatched =>
    obtain ⟨hsettled, hothers⟩ := history_dispatched hdispatched
    rw [List.append_nil, after_append]
    exact ⟨(Fared.pulled h hpulled).congr fun n hn i hi => hothers i (hnew n hn i hi) _, fun i hi => hsettled i hi _⟩
  | failed hpulled hdispatched hreleased =>
    obtain ⟨hsettled, hothers⟩ := history_dispatched hdispatched
    rw [after_append, after_append]
    have hfared : Fared before between write (after more (after told histories)) :=
      (Fared.pulled h hpulled).congr fun n hn i hi => hothers i (hnew n hn i hi) _
    refine ⟨hfared.released hreleased, fun i hi => ?_⟩
    -- the request's cursor is none of the scan's, so closing the scan says nothing of it
    have hclosing : after closing (after more (after told histories)) i = after more (after told histories) i := by
      refine foldl_released_other hreleased (fun n hn hmem => ?_) _
      rcases hfared with ⟨hbetween, -⟩ | ⟨hbetween, -⟩
      · exact hnew n (hbetween ▸ hn) i hmem hi
      · rw [hbetween] at hn
        cases hn
    rw [hclosing]
    exact hsettled i hi _

/-! ## Orderly histories -/

/-- The lock mode for exclusive row locks has been set, and after that the table has been locked exclusively. -/
def LockedIn (history : List Mark) : Prop := ∃ first second third,
  history = first ++ .lockModeSet .intentionExclusive :: (second ++ .locked .exclusive :: third)

/-- **The history of a cursor of someone who may write, or may not.** -/
structure Orderly (write : Bool) (history : List Mark) : Prop where
  /-- The cursor is opened first, and only then. -/
  opened : ∃ onIndex rest, history = .opened onIndex :: rest ∧ ∀ onIndex, .opened onIndex ∉ rest
  /-- It is closed at most once, and at last. -/
  closed : .closed ∉ history.dropLast
  /-- Before a write it has been locked, and it has been opened without an index. -/
  written : ∀ before after, history = before ++ .wrote :: after →
    LockedIn before ∧ history.head? = some (.opened false)
  /-- Before a search, too, if there may be writes. -/
  searched : write = true → ∀ before after, history = before ++ .searched :: after → LockedIn before
  /-- It is neither locked nor written through if there may not. -/
  reading : write = false → ∀ m ∈ history, m ≠ .wrote ∧ (∀ mode, m ≠ .lockModeSet mode) ∧ ∀ mode, m ≠ .locked mode

/-- Behind the locks all is locked. -/
theorem lockedIn_of_locks {onIndex : Bool} {rest before after : List Mark} {m : Mark}
    (h : .opened onIndex :: (locks true ++ rest) = before ++ m :: after) (hopened : m ≠ .opened onIndex)
    (hmode : m ≠ .lockModeSet .intentionExclusive) (hlock : m ≠ .locked .exclusive) : LockedIn before := by
  rcases before with _ | ⟨first, _ | ⟨second, _ | ⟨third, before⟩⟩⟩
  · cases h
    exact absurd rfl hopened
  · cases h
    exact absurd rfl hmode
  · cases h
    exact absurd rfl hlock
  · cases h
    exact ⟨[_], [], before, rfl⟩

theorem Lawful.mem {use : Bool} {marks : List Mark} (h : Lawful write use marks) {m : Mark} (hm : m ∈ marks) :
    (write = true ∧ (m = .lockModeSet .intentionExclusive ∨ m = .locked .exclusive)) ∨ m = .searched ∨
      (m = .wrote ∧ use = true) := by
  rcases h with rfl | ⟨hwrite, rfl⟩ | ⟨rest, rfl, hrest⟩
  · cases hm
  · exact .inl ⟨hwrite, .inl (List.mem_singleton.1 hm)⟩
  · rcases List.mem_append.1 hm with hm | hm
    · unfold locks at hm
      cases write with
      | false => cases hm
      | true => exact .inl ⟨rfl, by simpa using hm⟩
    · exact .inr (hrest m hm)

theorem Lawful.lockedFirst {use : Bool} {marks : List Mark} (h : Lawful write use marks) {m : Mark} (hm : m ∈ marks)
    (hmode : m ≠ .lockModeSet .intentionExclusive) : LockedFirst write use marks := by
  rcases h with rfl | ⟨-, rfl⟩ | h
  · cases hm
  · exact absurd (List.mem_singleton.1 hm) hmode
  · exact h

section
variable {onIndex use : Bool} {marks ending before after : List Mark} {m : Mark}

theorem mem_between (hclosed : ∀ m ∈ ending, m = .closed)
    (heq : .opened onIndex :: (marks ++ ending) = before ++ m :: after) (hm : m = .searched ∨ m = .wrote) : m ∈ marks := by
  have hmem : m ∈ Mark.opened onIndex :: (marks ++ ending) := heq ▸ List.mem_append_right before List.mem_cons_self
  rcases List.mem_cons.1 hmem with rfl | hmem
  · rcases hm with hm | hm <;> cases hm
  rcases List.mem_append.1 hmem with hmem | hmem
  · exact hmem
  · rw [hclosed m hmem] at hm
    rcases hm with hm | hm <;> cases hm

theorem Lawful.lockedIn (h : Lawful true use marks) (hclosed : ∀ m ∈ ending, m = .closed)
    (heq : .opened onIndex :: (marks ++ ending) = before ++ m :: after) (hm : m = .searched ∨ m = .wrote) :
    LockedIn before := by
  obtain ⟨rest, rfl, -⟩ := h.lockedFirst (mem_between hclosed heq hm) (by rcases hm with rfl | rfl <;> decide)
  rw [List.append_assoc] at heq
  rcases hm with rfl | rfl <;> exact lockedIn_of_locks heq (by simp) (by simp) (by simp)

/-- **Histories that are lawful are orderly.** -/
theorem Orderly.of_lawful (h : Lawful write (write && !onIndex) marks) (hending : ending = [] ∨ ending = [.closed]) :
    Orderly write (.opened onIndex :: (marks ++ ending)) := by
  have hclosed : ∀ m ∈ ending, m = .closed := by
    rcases hending with rfl | rfl
    · exact fun m hm => by cases hm
    · exact fun m hm => List.mem_singleton.1 hm
  constructor
  case opened =>
    refine ⟨onIndex, marks ++ ending, rfl, fun b hb => ?_⟩
    rcases List.mem_append.1 hb with hb | hb
    · rcases h.mem hb with ⟨-, hc | hc⟩ | hc | ⟨hc, -⟩ <;> cases hc
    · cases hclosed _ hb
  case closed =>
    have hsub : ∀ m ∈ (Mark.opened onIndex :: (marks ++ ending)).dropLast, m ∈ Mark.opened onIndex :: marks := by
      rcases hending with rfl | rfl
      · rw [List.append_nil]
        exact fun m hm => List.dropLast_subset _ hm
      · rw [← List.cons_append, List.dropLast_concat]
        exact fun m hm => hm
    exact fun hmem => StillOpen.not_closed ⟨onIndex, marks, rfl, h⟩ (hsub _ hmem)
  case written =>
    intro before after heq
    rcases h.mem (mem_between hclosed heq (.inr rfl)) with ⟨-, hc | hc⟩ | hc | ⟨-, huse⟩
    · cases hc
    · cases hc
    · cases hc
    · obtain ⟨rfl, hindex⟩ := Bool.and_eq_true_iff.1 huse
      refine ⟨h.lockedIn hclosed heq (.inr rfl), ?_⟩
      rw [Bool.not_eq_true'] at hindex
      rw [hindex]
      rfl
  case searched =>
    rintro rfl before after heq
    exact h.lockedIn hclosed heq (.inl rfl)
  case reading =>
    rintro rfl m hm
    rcases List.mem_cons.1 hm with rfl | hm
    · exact ⟨by simp, by simp, by simp⟩
    rcases List.mem_append.1 hm with hm | hm
    · rcases h.mem hm with ⟨hc, -⟩ | rfl | ⟨-, hc⟩
      · cases hc
      · exact ⟨by simp, by simp, by simp⟩
      · cases hc
    · rw [hclosed m hm]
      exact ⟨by decide, by simp, by simp⟩

end

theorem Settled.orderly {history : List Mark} (h : Settled write history) : Orderly write history := by
  obtain ⟨onIndex, marks, rfl, hmarks⟩ := h
  exact .of_lawful hmarks (.inr rfl)

theorem StillOpen.orderly {history : List Mark} (h : StillOpen write history) : Orderly write history := by
  obtain ⟨onIndex, marks, rfl, hmarks⟩ := h
  have horderly := Orderly.of_lawful hmarks (.inl rfl)
  rwa [List.append_nil] at horderly

end Memory
end RowStore

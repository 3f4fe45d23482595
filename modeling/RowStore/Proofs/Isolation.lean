import RowStore.Client
import RowStore.Proofs.CallFrames
import RowStore.Proofs.PopulatedRuns

/-!
# Isolation of transactions

Once a transaction has a copy of a table, what its calls on the table answer is what they would answer on a database where
there is nothing but the transaction and the copy (`follows_alone`).  Until it commits, it changes no committed table and
no other transaction (`effect_of_owner`), so a run in which it never commits leaves the committed tables that the run
without it leaves (`Erased`).  After its end its cursors are of no use.  That is what every run is like (`isolated_run`).
-/
namespace RowStore
namespace Memory

open Attempt

namespace Database

variable {db db' : Database} {id other : Nat} {name : String} {t : Table} {call : Call} {calls : List Call}

/-! ## A transaction on its own -/

/-- A database with nothing but a transaction and its copy of a table. -/
def alone (name : String) (t : Table) : Database :=
  setWorkspace {} 0 { copies := OrderedMap.empty.insert name ⟨t, false⟩ }

theorem has_alone (name : String) (t : Table) : (alone name t).Has 0 name t := by
  constructor
  · unfold alone
    rw [workspace_setWorkspace]
  · unfold alone
    rw [workspace_setWorkspace, OrderedMap.get?_insert_self]
    rfl

/-- A transaction has touched a table: it has a copy. -/
def Touched (db : Database) (id : Nat) (name : String) : Prop := ((db.workspace id).copies.get? name).isSome

theorem Sees.has (h : db.Sees id name t) (htouched : db.Touched id name) : db.Has id name t := by
  obtain ⟨copy, hcopy⟩ := Option.isSome_iff_exists.1 htouched
  have hseen := h.seen
  rw [hcopy] at hseen
  exact ⟨h.active, by rw [hcopy]; exact hseen⟩

/-- A transaction sees what the one on its own has; it has touched the table if that is told. -/
def aloneBond (touched : Prop) (id : Nat) (name : String) : Bond where
  states db db' := ∃ t, db.Sees id name t ∧ (touched → db.Has id name t) ∧ db'.Has 0 name t
  cursors _ _ := True

theorem links_aloneBond (touched : Prop) (id : Nat) (name : String) : (aloneBond touched id name).Links id 0 name where
  onTable write work _ := by
    rintro db db' ⟨t, hsees, -, hhas⟩
    obtain ⟨s, hs, h⟩ := (ends_onTable hsees write work).apply
    obtain ⟨s', hs', h'⟩ := (ends_onTable hhas.sees write work).apply
    rw [hs, hs']
    exact ⟨Agree.refl (fun _ => ⟨rfl, True.intro⟩) _, (work t).2, h.sees, fun _ => h, h'⟩
  looks _ _ := True.intro
  next _ _ _ := True.intro
  count := by
    rintro db db' ⟨t, hsees, htouched, hhas⟩
    exact ⟨t, hsees.setWorkspace rfl rfl, fun ht => (htouched ht).setWorkspace rfl rfl, hhas.setWorkspace rfl rfl⟩
  record operation := by
    rintro db db' - ⟨t, hsees, htouched, hhas⟩
    exact ⟨t, hsees.setWorkspace rfl rfl, fun ht => (htouched ht).record _ _, hhas.record _ _⟩
  ledger f := by
    rintro db db' ⟨t, hsees, htouched, hhas⟩
    exact ⟨t, hsees.ledger _, fun ht => (htouched ht).ledger _, hhas.ledger _⟩

/-- **No call takes a copy away from a transaction** but its own calls on the table and its end. -/
theorem Has.effect (h : db.Has id name t) (hnumbered : db.Numbered) (hon : ¬call.On id name) (hends : ¬call.Ends id) :
    (call.effect db).Has id name t := by
  have hlt : id < db.nextTransaction := hnumbered.lt (by rw [h.active]; exact fun hc => by cases hc)
  rcases workspace_cases call db id with hsame | ⟨level, -, heq⟩ | ⟨name', hon'⟩ | ⟨hends', -⟩
  · exact ⟨by rw [hsame]; exact h.active, by rw [hsame]; exact h.copied⟩
  · exact absurd heq (Nat.ne_of_lt hlt)
  · have hwithin := within_effect hon' db
    have hne : name ≠ name' := fun heq => hon (heq ▸ hon')
    exact ⟨hwithin.state.trans h.active, by rw [hwithin.elsewhere name hne]; exact h.copied⟩
  · exact absurd hends' hends

/-- **What a transaction's calls on a table answer is what they answer on their own**, whatever else goes on. -/
theorem follows_alone : ∀ {calls : List Call} {db db' : Database} {t : Table}, db.Numbered → db.Has id name t →
    db'.Has 0 name t → (∀ call ∈ calls, ¬call.Ends id) →
      (Call.answers (fun call => call.On id name) calls db).map Answer.anonymous =
        (Call.answers (fun _ => true) ((calls.filter fun call => call.On id name).map Call.anonymous) db').map
          Answer.anonymous
  | [], _, _, _, _, _, _, _ => rfl
  | call :: calls, db, db', t, hnumbered, h, h', hends => by
    have hrest : ∀ c ∈ calls, ¬c.Ends id := fun c hc => hends c (List.mem_cons_of_mem _ hc)
    -- a call on the table is made on both sides; any other leaves the copy, and there is none on the right
    by_cases hon : call.On id name
    · obtain ⟨hanswer, t', -, hhas, hhas'⟩ := (links_aloneBond True id name).perform (f := fun _ => 0) (g := fun _ => 0)
        rfl (fun _ => True.intro) (Call.means_of_forall fun _ _ _ _ => True.intro) hon ⟨t, h.sees, fun _ => h, h'⟩
      rw [Call.perform_snd] at hhas hhas'
      rw [List.filter_cons_of_pos (by simpa using hon), List.map_cons, Call.answers_cons_of_pos (by simpa using hon),
        Call.answers_cons_of_pos rfl, List.map_cons, List.map_cons, hanswer,
        follows_alone (hnumbered.effect call) (hhas True.intro) hhas' hrest]
    · rw [List.filter_cons_of_neg (by simpa using hon), Call.answers_cons_of_neg (by simpa using hon)]
      exact follows_alone (hnumbered.effect call) (h.effect hnumbered hon (hends call List.mem_cons_self)) h' hrest

/-! ## What a transaction does to others -/

/-- **Nothing that a transaction does changes a committed table or another transaction**, but a commit that succeeds. -/
theorem effect_of_owner (howner : call.owner? = some id)
    (hcommit : (∃ level, call = .commit ⟨id, level⟩) → ∃ e, (call.perform db).1.result = .error e) :
    (call.effect db).tables = db.tables ∧ (call.effect db).nextTransaction = db.nextTransaction ∧
      ∀ other, other ≠ id → (call.effect db).workspace other = db.workspace other := by
  rcases call.cases with hnone | ⟨owner, howner', hends | ⟨name, hon⟩⟩
  · rw [hnone] at howner
    cases howner
  · obtain rfl : owner = id := Option.some.inj (howner'.symm.trans howner)
    obtain ⟨commit, heffect, hiff⟩ := effect_of_ends hends
    rw [heffect]
    refine ⟨?_, finish_next commit, fun other hne => finish_others commit hne⟩
    unfold quietly
    by_cases hactive : (db.workspace owner).state = .active
    · rw [finish_of_active hactive]
      cases commit with
      | false => rfl
      | true =>
        obtain ⟨level, rfl⟩ := hiff.1 rfl
        obtain ⟨e, he⟩ := hcommit ⟨level, rfl⟩
        have hok : ((Call.commit ⟨owner, level⟩).perform db).1.result =
            (finish owner true db).1.map fun _ => Returned.nothing := rfl
        rw [hok, finish_of_active hactive] at he
        cases he
    · rw [finish_of_not_active hactive]
  · obtain rfl : owner = id := Option.some.inj (howner'.symm.trans howner)
    have hwithin := within_effect hon db
    exact ⟨hwithin.tables, hwithin.next, hwithin.others⟩

/-! ## A run without a transaction -/

/-- The number of another transaction in a run from which one is left out. -/
def closeUp (id other : Nat) : Nat := if id < other then other - 1 else other

theorem closeUp_inj {a b : Nat} (ha : a ≠ id) (hb : b ≠ id) (h : closeUp id a = closeUp id b) : a = b := by
  unfold closeUp at h
  split at h <;> split at h <;> omega

/-- The calls of a run without those of a transaction. -/
def leaveOut (id : Nat) (calls : List Call) : List Call :=
  (calls.filter fun call => call.owner? ≠ some id).map (Call.renumber (closeUp id) fun n => n)

/-- The second database is the first one without a transaction. -/
structure Erased (id : Nat) (db db' : Database) : Prop where
  tables : db'.tables = db.tables
  next : db.nextTransaction = db'.nextTransaction + 1
  begun : id ≤ db'.nextTransaction
  others : ∀ other, other ≠ id → (db'.workspace (closeUp id other)).state = (db.workspace other).state ∧
    (db'.workspace (closeUp id other)).copies = (db.workspace other).copies

namespace Erased

theorem setWorkspace (h : Erased id db db') (hne : other ≠ id) {w w' : Workspace} (hstate : w'.state = w.state)
    (hcopies : w'.copies = w.copies) :
    Erased id (db.setWorkspace other w) (db'.setWorkspace (closeUp id other) w') where
  tables := h.tables
  next := h.next
  begun := h.begun
  others third hthird := by
    by_cases heq : third = other
    · subst heq
      rw [workspace_setWorkspace, workspace_setWorkspace]
      exact ⟨hstate, hcopies⟩
    · rw [workspace_setWorkspace_of_ne _ heq,
        workspace_setWorkspace_of_ne _ fun hc => heq (closeUp_inj hthird hne hc)]
      exact h.others third hthird

theorem withTables (h : Erased id db db') {tables tables' : OrderedMap String Table} (heq : tables' = tables) :
    Erased id { db with tables } { db' with tables := tables' } := ⟨heq, h.next, h.begun, h.others⟩

theorem ledger (h : Erased id db db') (l l' : Ledger) : Erased id { db with ledger := l } { db' with ledger := l' } :=
  ⟨h.tables, h.next, h.begun, h.others⟩

end Erased

/-- A database with a transaction and the one without it. -/
def eraseBond (id : Nat) : Bond where
  states := Erased id
  cursors _ _ := True

theorem links_eraseBond (hne : other ≠ id) (name : String) :
    (eraseBond id).Links other (closeUp id other) name where
  onTable write work _ := by
    intro db db' h
    obtain ⟨hstate, hcopies⟩ := h.others other hne
    by_cases hactive : (db.workspace other).state = .active
    · -- the committed tables are the same, so a new copy is, too
      have hcopy : db'.copy? (closeUp id other) name = db.copy? other name := by
        unfold copy?
        rw [hcopies, h.tables]
      rw [onTable_of_active hactive, onTable_of_active (hstate.trans hactive), hcopy]
      cases db.copy? other name with
      | none => exact ⟨rfl, h⟩
      | some copy =>
        refine ⟨Agree.refl (fun _ => ⟨rfl, True.intro⟩) _, h.setWorkspace hne hstate ?_⟩
        dsimp only
        rw [hcopies]
    · rw [onTable_of_not_active hactive, onTable_of_not_active fun hc => hactive (hstate ▸ hc)]
      exact ⟨rfl, h⟩
  looks _ _ := True.intro
  next _ _ _ := True.intro
  count db db' h := h.setWorkspace hne (h.others other hne).1 (h.others other hne).2
  record operation db db' _ h := h.setWorkspace hne (h.others other hne).1 (h.others other hne).2
  ledger f db db' h := h.ledger _ _

namespace Erased

theorem finish (h : Erased id db db') (hne : other ≠ id) (commit : Bool) :
    Erased id (quietly (Database.finish other commit) db) (quietly (Database.finish (closeUp id other) commit) db') := by
  obtain ⟨hstate, hcopies⟩ := h.others other hne
  unfold quietly
  by_cases hactive : (db.workspace other).state = .active
  · rw [finish_of_active hactive, finish_of_active (hstate.trans hactive), hcopies, h.tables]
    exact (h.withTables rfl).setWorkspace hne rfl rfl
  · rw [finish_of_not_active hactive, finish_of_not_active fun hc => hactive (hstate ▸ hc)]
    exact h

theorem begin (h : Erased id db db') (level : IsolationLevel) :
    Erased id ((Call.begin level).effect db) ((Call.begin level).effect db') := by
  have hlt : id < db.nextTransaction := h.next ▸ Nat.lt_succ_of_le h.begun
  have hcloseUp : closeUp id db.nextTransaction = db'.nextTransaction := by
    unfold closeUp
    rw [if_pos hlt, h.next, Nat.add_sub_cancel]
  have hne : db.nextTransaction ≠ id := Nat.ne_of_gt hlt
  have hset : Erased id (db.setWorkspace _ {}) (db'.setWorkspace _ {}) := h.setWorkspace hne rfl rfl
  rw [hcloseUp] at hset
  exact ⟨hset.tables, congrArg (· + 1) h.next, Nat.le_succ_of_le h.begun, hset.others⟩

/-- Calls on the database itself see its tables only. -/
theorem database (h : Erased id db db') (hnone : call.owner? = none) : Erased id (call.effect db) (call.effect db') := by
  cases call with
  | begin level => exact h.begin level
  | createTable d =>
    dsimp only [Call.effect, quietly]
    cases d.build with
    | error e => exact h
    | ok schema =>
      dsimp only
      unfold createTable
      rw [h.tables]
      split
      · exact h
      · exact h.withTables rfl
  | dropTable name =>
    dsimp only [Call.effect, quietly]
    unfold dropTable
    rw [h.tables]
    split
    · exact h.withTables rfl
    · exact h
  | truncateTable name =>
    dsimp only [Call.effect, quietly]
    unfold truncateTable
    rw [h.tables]
    split
    · exact h.withTables rfl
    · exact h
  | disposeTuple tuple =>
    dsimp only [Call.effect, quietly]
    rw [Tuple.dispose_apply, Tuple.dispose_apply]
    split
    · exact h
    · exact h.ledger _ _
  | _ => cases hnone

/-- **A call of another transaction does the same without the one that is left out.** -/
theorem foreign (h : Erased id db db') (howner : call.owner? ≠ some id) :
    Erased id (call.effect db) ((call.renumber (closeUp id) fun n => n).effect db') := by
  rcases call.cases with hnone | ⟨owner, howner', hends | ⟨name, hon⟩⟩
  · have hsame : (call.renumber (closeUp id) fun n => n) = call := by
      cases call with
      | createTable | dropTable | truncateTable | begin | disposeTuple => rfl
      | _ => cases hnone
    rw [hsame]
    exact h.database hnone
  · have hne : owner ≠ id := fun heq => howner (heq ▸ howner')
    cases call with
    | commit txn =>
      cases howner'
      exact h.finish hne true
    | rollback txn =>
      cases howner'
      exact h.finish hne false
    | createTable | dropTable | truncateTable | begin | disposeTuple => cases howner'
    | _ => cases hends.2
  · have hne : owner ≠ id := fun heq => howner (heq ▸ howner')
    obtain ⟨-, h⟩ := (links_eraseBond hne name).perform (f := closeUp id) (g := fun n => n) rfl
      (fun _ => True.intro) (Call.means_of_forall fun _ _ _ _ => True.intro) hon h
    rw [Call.perform_snd, Call.perform_snd] at h
    exact h

/-- A call of the transaction itself is not missed. -/
theorem own (h : Erased id db db') (howner : call.owner? = some id) (hcommit : ∀ level, call ≠ .commit ⟨id, level⟩) :
    Erased id (call.effect db) db' := by
  have hfails : (∃ level, call = .commit ⟨id, level⟩) → ∃ e, (call.perform db).1.result = .error e :=
    fun ⟨level, heq⟩ => absurd heq (hcommit level)
  obtain ⟨htables, hnext, hothers⟩ := effect_of_owner howner hfails
  refine ⟨h.tables.trans htables.symm, hnext.trans h.next, h.begun, fun other hne => ?_⟩
  rw [hothers other hne]
  exact h.others other hne

/-- **A run in which a transaction does not commit leaves the database that the run without it leaves**, but for the
transaction. -/
theorem run : ∀ {calls : List Call} {db db' : Database}, Erased id db db' →
    (∀ call ∈ calls, ∀ level, call ≠ .commit ⟨id, level⟩) →
      Erased id (db.after calls) (db'.after (leaveOut id calls))
  | [], _, _, h, _ => h
  | call :: calls, db, db', h, hcommit => by
    have hrest : ∀ c ∈ calls, ∀ level, c ≠ .commit ⟨id, level⟩ := fun c hc => hcommit c (List.mem_cons_of_mem _ hc)
    by_cases howner : call.owner? = some id
    · have hleave : leaveOut id (call :: calls) = leaveOut id calls := by
        unfold leaveOut
        rw [List.filter_cons_of_neg (by simpa using howner)]
      rw [hleave]
      exact run (h.own howner (hcommit call List.mem_cons_self)) hrest
    · have hleave : leaveOut id (call :: calls) = (call.renumber (closeUp id) fun n => n) :: leaveOut id calls := by
        unfold leaveOut
        rw [List.filter_cons_of_pos (by simpa using howner), List.map_cons]
      rw [hleave]
      exact run (h.foreign howner) hrest

end Erased

/-- A transaction that has just been begun is not missed. -/
theorem Numbered.erased (h : db.Numbered) (level : IsolationLevel) :
    Erased db.nextTransaction ((Call.begin level).effect db) db := by
  refine ⟨rfl, rfl, Nat.le_refl _, fun other hne => ?_⟩
  have hsame : ((Call.begin level).effect db).workspace other = db.workspace other :=
    workspace_setWorkspace_of_ne db hne {}
  rw [hsame]
  unfold closeUp
  split
  · -- both numbers are still to be given out
    rename_i hlt
    obtain ⟨hstate, hcopies⟩ := h other (Nat.le_of_lt hlt)
    obtain ⟨hstate', hcopies'⟩ := h (other - 1) (Nat.le_sub_one_of_lt hlt)
    exact ⟨hstate'.trans hstate.symm, hcopies'.trans hcopies.symm⟩
  · exact ⟨rfl, rfl⟩

/-! ## Isolation -/

/-- **A body that fails takes its transaction with it**, and its error is the answer. -/
theorem inTransaction_of_error {ε ρ α : Type} {level : IsolationLevel} (embed : Error → ε)
    {body : Transaction → Attempt ε (ρ × Database) α} {notes notes' : ρ} {e : ε}
    (hbody : body ⟨db.nextTransaction, level⟩ (notes, (Call.begin level).effect db) = (.error e, notes', db')) :
    Client.inTransaction engine level embed body (notes, db) =
      (.error e, notes', abandon db.nextTransaction db') := by
  have hbegin : Attempt.below (ρ := ρ) ((engine.begin level).mapError embed) (notes, db) =
      (.ok ⟨db.nextTransaction, level⟩, notes, (Call.begin level).effect db) := rfl
  have houtcome : (Attempt.outcome (body ⟨db.nextTransaction, level⟩) : Attempt ε (ρ × Database) (Except ε α))
      (notes, (Call.begin level).effect db) = (.ok (.error e), notes', db') := by
    unfold Attempt.outcome
    rw [hbody]
  unfold Client.inTransaction
  rw [bind_apply, hbegin]
  dsimp only
  rw [bind_apply, houtcome]
  rfl

/-- What holds of transactions after some calls. -/
structure Isolated (before : List Call) : Prop where
  /-- From the call on with which a transaction touches a table, its calls on the table answer what they answer on a
  database with nothing but the transaction and the table as it was then. -/
  follows : ∀ {id : Nat} {name : String} {t : Table} {first : Call} {more : List Call},
    (run before).Sees id name t → first.On id name → (first.effect (run before)).Touched id name →
      (∀ call ∈ more, ¬call.Ends id) →
        (Call.answers (fun call => call.On id name) (first :: more) (run before)).map Answer.anonymous =
          (Call.answers (fun _ => true) (((first :: more).filter fun call => call.On id name).map Call.anonymous)
            (alone name t)).map Answer.anonymous
  /-- A transaction's calls change no committed table and no other transaction; a commit that succeeds may. -/
  quiet : ∀ {id : Nat} {call : Call}, call.owner? = some id →
    ((∃ level, call = .commit ⟨id, level⟩) → ∃ e, (call.perform (run before)).1.result = .error e) →
      (call.effect (run before)).tables = (run before).tables ∧
        ∀ other, other ≠ id → (call.effect (run before)).workspace other = (run before).workspace other
  /-- As long as a transaction does not commit, and so also after it has been rolled back, the committed tables are as if
  it had never begun. -/
  traceless : ∀ (level : IsolationLevel) {calls : List Call},
    (∀ call ∈ calls, ∀ level, call ≠ .commit ⟨(run before).nextTransaction, level⟩) →
      (run (before ++ .begin level :: calls)).tables =
        (run (before ++ leaveOut (run before).nextTransaction calls)).tables
  /-- To let go of a transaction is to roll it back. -/
  abandoned : ∀ (txn : Transaction), abandon txn.id (run before) = (Call.rollback txn).effect (run before)
  /-- The same of a transaction whose body fails.  The body's error is the answer. -/
  failed : ∀ {ε ρ α : Type} (level : IsolationLevel) (embed : Error → ε)
    (body : Transaction → Attempt ε (ρ × Database) α) {notes notes' : ρ} {e : ε} {calls : List Call},
    (∀ call ∈ calls, ∀ level, call ≠ .commit ⟨(run before).nextTransaction, level⟩) →
      body ⟨(run before).nextTransaction, level⟩ (notes, run (before ++ [.begin level])) =
        (.error e, notes', run (before ++ .begin level :: calls)) →
        ∃ db, Client.inTransaction engine level embed body (notes, run before) = (.error e, notes', db) ∧
          db.tables = (run (before ++ leaveOut (run before).nextTransaction calls)).tables
  /-- A cursor of a transaction that is over can neither look, write nor move, and changes no table in trying to. -/
  outlived : ∀ {id : Nat}, (run before).Over id → ∀ (more : List Call) {call : Call}, call.ByCursor →
    call.owner? = some id →
    (∃ e, (call.perform (run (before ++ more))).1.result = .error e) ∧
      (call.effect (run (before ++ more))).tables = (run (before ++ more)).tables ∧
      ∀ other, ((call.effect (run (before ++ more))).workspace other).copies =
        ((run (before ++ more)).workspace other).copies

/-- **Transactions are isolated**, after any calls whatever. -/
theorem isolated_run (before : List Call) : Isolated before := by
  have hnumbered := numbered_run before
  have htraceless : ∀ (level : IsolationLevel) {calls : List Call},
      (∀ call ∈ calls, ∀ level, call ≠ .commit ⟨(run before).nextTransaction, level⟩) →
        (run (before ++ .begin level :: calls)).tables =
          (run (before ++ leaveOut (run before).nextTransaction calls)).tables := by
    intro level calls hcommit
    rw [run_append, run_append]
    exact ((hnumbered.erased level).run hcommit).tables.symm
  refine ⟨?follows, ?quiet, htraceless, fun _ => rfl, ?failed, ?outlived⟩
  case follows =>
    intro id name t first more hsees hon htouched hends
    obtain ⟨hanswer, t', hsees', -, hhas'⟩ := (links_aloneBond False id name).perform (f := fun _ => 0) (g := fun _ => 0)
      rfl (fun _ => True.intro) (Call.means_of_forall fun _ _ _ _ => True.intro) hon ⟨t, hsees, False.elim, has_alone name t⟩
    rw [Call.perform_snd] at hsees' hhas'
    rw [List.filter_cons_of_pos (by simpa using hon), List.map_cons, Call.answers_cons_of_pos (by simpa using hon),
      Call.answers_cons_of_pos rfl, List.map_cons, List.map_cons, hanswer,
      follows_alone (hnumbered.effect first) (hsees'.has htouched) hhas' hends]
  case quiet =>
    intro id call howner hcommit
    obtain ⟨htables, -, hothers⟩ := effect_of_owner howner hcommit
    exact ⟨htables, hothers⟩
  case failed =>
    intro ε ρ α level embed body notes notes' e calls hcommit hbody
    rw [run_append] at hbody
    have hrollback : (Call.rollback ⟨(run before).nextTransaction, level⟩).owner? = some (run before).nextTransaction :=
      rfl
    have herased := ((hnumbered.erased level).run hcommit).own hrollback fun _ hc => by cases hc
    refine ⟨_, inTransaction_of_error embed hbody, ?_⟩
    rw [run_append before (.begin level :: calls), run_append]
    exact herased.tables.symm
  case outlived =>
    intro id hover more call hcursor howner
    have hactive := (over_run hover more).not_active
    obtain ⟨owner, howner', hends | ⟨name, hon⟩⟩ := call.cases.resolve_left (by rw [howner]; exact fun hc => by cases hc)
    · cases call with
      | search | readRow | insertRow | updateRow | deleteRow | advance => cases hends.2
      | _ => exact hcursor.elim
    · obtain rfl : owner = id := Option.some.inj (howner'.symm.trans howner)
      have hwithin := within_effect hon (run (before ++ more))
      refine ⟨Call.fails_of_not_active hcursor howner hactive, hwithin.tables, fun other => ?_⟩
      by_cases heq : other = owner
      · rw [heq, hwithin.ended hactive]
      · rw [hwithin.others other heq]

/-- One transaction reads back what it has written, although another one has committed a row meanwhile and the table has
been dropped. -/
theorem isolated_people :
    (Call.answers (fun call => call.On 1 "people")
      [.insert ⟨1, .readCommitted⟩ people (person 1 "ada"), .begin .readCommitted,
        .insert ⟨2, .readCommitted⟩ people (person 2 "bob"), .commit ⟨2, .readCommitted⟩, .dropTable "people",
        .load ⟨1, .readCommitted⟩ people (person 1 ""), .load ⟨1, .readCommitted⟩ people (person 2 "")]
      (run peopleCalls)).map Answer.anonymous =
      [{ result := .ok .nothing }, { result := .ok (.row (some (person 1 "ada"))) }, { result := .ok (.row none) }] := by
  refine ((isolated_run peopleCalls).follows sees_people ⟨rfl, rfl⟩ (by cbv) (by decide)).trans ?_
  cbv

end Database
end Memory
end RowStore

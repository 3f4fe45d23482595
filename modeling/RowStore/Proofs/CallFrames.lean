import RowStore.Proofs.CallAnswers
import RowStore.Proofs.Copies

/-!
# What a call leaves alone

A call on a table changes nothing of the database but the transaction's own copy of that table, its log and its count of
cursors, and the ledger (`Within`, `within_effect`).  A transaction's workspace changes only when the transaction is begun,
works on a table or ends (`workspace_cases`).  No number is given to a second transaction (`Numbered`), so one that is over
stays over (`over_run`), and its cursors are of no more use (`Call.fails_of_not_active`).
-/
namespace RowStore
namespace Memory
namespace Database

open Attempt

variable {db db' : Database} {id other : Nat} {name : String} {t : Table}

/-! ## The frame of a call on a table -/

/-- From one database to the next only a transaction's work on one table has gone on. -/
structure Within (id : Nat) (name : String) (db db' : Database) : Prop where
  tables : db'.tables = db.tables
  next : db'.nextTransaction = db.nextTransaction
  others : ∀ other, other ≠ id → db'.workspace other = db.workspace other
  state : (db'.workspace id).state = (db.workspace id).state
  elsewhere : ∀ name', name' ≠ name → (db'.workspace id).copies.get? name' = (db.workspace id).copies.get? name'
  ended : (db.workspace id).state ≠ .active → (db'.workspace id).copies = (db.workspace id).copies
  ascending : (db.workspace id).copies.Ascending → (db'.workspace id).copies.Ascending

namespace Within

theorem refl (id : Nat) (name : String) (db : Database) : Within id name db db :=
  ⟨rfl, rfl, fun _ _ => rfl, rfl, fun _ _ => rfl, fun _ => rfl, fun h => h⟩

theorem setWorkspace (h : Within id name db db') {w : Workspace} (hstate : w.state = (db.workspace id).state)
    (helsewhere : ∀ name', name' ≠ name → w.copies.get? name' = (db.workspace id).copies.get? name')
    (hended : (db.workspace id).state ≠ .active → w.copies = (db.workspace id).copies)
    (hascending : (db.workspace id).copies.Ascending → w.copies.Ascending) :
    Within id name db (db'.setWorkspace id w) where
  tables := h.tables
  next := h.next
  others other hne := (workspace_setWorkspace_of_ne db' hne w).trans (h.others other hne)
  state := by
    rw [workspace_setWorkspace]
    exact hstate
  elsewhere := by
    rw [workspace_setWorkspace]
    exact helsewhere
  ended := by
    rw [workspace_setWorkspace]
    exact hended
  ascending := by
    rw [workspace_setWorkspace]
    exact hascending

theorem ledger (h : Within id name db db') (l : Ledger) : Within id name db { db' with ledger := l } :=
  ⟨h.tables, h.next, h.others, h.state, h.elsewhere, h.ended, h.ascending⟩

/-- The log and the count of cursors are the transaction's own. -/
theorem bookkeeping (h : Within id name db db') {w : Workspace} (hstate : w.state = (db'.workspace id).state)
    (hcopies : w.copies = (db'.workspace id).copies) : Within id name db (db'.setWorkspace id w) :=
  h.setWorkspace (hstate.trans h.state) (fun name' hne => hcopies ▸ h.elsewhere name' hne)
    (fun hended => hcopies.trans (h.ended hended)) fun hascending => hcopies ▸ h.ascending hascending

end Within

/-- One database next to itself, while a transaction works on a table of it. -/
def workBond (id : Nat) (name : String) (db : Database) : Bond :=
  .keeping (Within id name db) ((db.workspace id).state = .active)

theorem links_workBond (id : Nat) (name : String) (db : Database) : (workBond id name db).Links id id name := by
  refine Bond.links_keeping (fun write work _ d h => ?_) (fun _ _ => True.intro)
    (fun _ _ h hstate hcopies => h.bookkeeping hstate hcopies) fun _ l h => h.ledger l
  by_cases hactive : (d.workspace id).state = .active
  · have hactive₀ : (db.workspace id).state = .active := h.state ▸ hactive
    rw [onTable_of_active hactive]
    cases d.copy? id name with
    | none => exact ⟨fun _ _ => hactive₀, h⟩
    | some copy =>
      refine ⟨fun _ _ => hactive₀, h.setWorkspace h.state (fun name' hne => ?_) (fun hne => absurd hactive₀ hne)
        fun hascending => OrderedMap.ascending_insert (h.ascending hascending)⟩
      rw [OrderedMap.get?_insert_of_ne hne.symm]
      exact h.elsewhere name' hne
  · rw [onTable_of_not_active hactive]
    exact ⟨fun _ ha => (by cases ha), h⟩

/-- **A call on a table leaves everything else alone.** -/
theorem within_effect {call : Call} (hon : call.On id name) (db : Database) : Within id name db (call.effect db) :=
  Bond.keeps_effect (links_workBond id name db) (Call.means_of_forall fun _ _ _ _ => True.intro) hon (.refl id name db)

/-! ## Ends of transactions -/

theorem finish_of_not_active (h : (db.workspace id).state ≠ .active) (commit : Bool) :
    finish id commit db = (.error (.engine .transactionClosed), db) := if_pos h

theorem finish_of_active (h : (db.workspace id).state = .active) (commit : Bool) :
    finish id commit db = (.ok (),
      { db with tables := if commit then publish db.tables (db.workspace id).copies else db.tables }.setWorkspace id
        { db.workspace id with state := if commit then .committed else .rolledBack, copies := .empty }) :=
  if_neg fun hne => hne h

/-- A call that ends a transaction either publishes the copies or discards them. -/
theorem effect_of_ends {call : Call} (h : call.Ends id) :
    ∃ commit, call.effect = quietly (finish id commit) ∧ (commit = true ↔ ∃ level, call = .commit ⟨id, level⟩) := by
  obtain ⟨hid, hname⟩ := h
  cases call with
  | commit txn =>
    cases hid
    exact ⟨true, rfl, fun _ => ⟨txn.level, rfl⟩, fun _ => rfl⟩
  | rollback txn =>
    cases hid
    exact ⟨false, rfl, fun hc => (by cases hc), fun ⟨_, hc⟩ => (by cases hc)⟩
  | createTable | dropTable | truncateTable | begin | disposeTuple => cases hid
  | _ => cases hname

theorem finish_others (commit : Bool) (hne : other ≠ id) :
    ((quietly (finish id commit) db).workspace other) = db.workspace other := by
  unfold quietly
  by_cases hactive : (db.workspace id).state = .active
  · rw [finish_of_active hactive]
    exact workspace_setWorkspace_of_ne _ hne _
  · rw [finish_of_not_active hactive]

theorem finish_next (commit : Bool) : (quietly (finish id commit) db).nextTransaction = db.nextTransaction := by
  unfold quietly
  by_cases hactive : (db.workspace id).state = .active
  · rw [finish_of_active hactive]
    rfl
  · rw [finish_of_not_active hactive]

/-! ## Calls on the database -/

/-- **A call of no transaction touches no transaction**, unless it begins one. -/
theorem effect_of_no_owner {call : Call} (h : call.owner? = none) (db : Database) :
    (∃ level, call = .begin level) ∨
      ((call.effect db).transactions = db.transactions ∧ (call.effect db).nextTransaction = db.nextTransaction) := by
  cases call with
  | begin level => exact .inl ⟨level, rfl⟩
  | createTable d =>
    refine .inr ?_
    dsimp only [Call.effect, quietly]
    cases d.build with
    | error e => exact ⟨rfl, rfl⟩
    | ok schema =>
      dsimp only
      unfold createTable
      split <;> exact ⟨rfl, rfl⟩
  | dropTable name =>
    refine .inr ?_
    dsimp only [Call.effect, quietly]
    unfold dropTable
    split <;> exact ⟨rfl, rfl⟩
  | truncateTable name =>
    refine .inr ?_
    dsimp only [Call.effect, quietly]
    unfold truncateTable
    split <;> exact ⟨rfl, rfl⟩
  | disposeTuple tuple =>
    refine .inr ?_
    dsimp only [Call.effect, quietly]
    rw [Tuple.dispose_apply]
    split <;> exact ⟨rfl, rfl⟩
  | _ => cases h

/-! ## What becomes of a workspace -/

/-- **A transaction's workspace only changes** when the transaction is begun, works on a table, or ends. -/
theorem workspace_cases (call : Call) (db : Database) (id : Nat) :
    (call.effect db).workspace id = db.workspace id ∨ (∃ level, call = .begin level ∧ id = db.nextTransaction) ∨
      (∃ name, call.On id name) ∨ (call.Ends id ∧ (db.workspace id).state = .active) := by
  rcases call.cases with hnone | ⟨owner, howner, hends | ⟨name, hon⟩⟩
  · rcases effect_of_no_owner hnone db with ⟨level, rfl⟩ | ⟨hsame, -⟩
    · by_cases heq : id = db.nextTransaction
      · exact .inr (.inl ⟨level, rfl, heq⟩)
      · exact .inl (workspace_setWorkspace_of_ne db heq {})
    · refine .inl ?_
      unfold workspace
      rw [hsame]
  · obtain ⟨commit, heffect, -⟩ := effect_of_ends hends
    rw [heffect]
    by_cases heq : id = owner
    · subst heq
      by_cases hactive : (db.workspace id).state = .active
      · exact .inr (.inr (.inr ⟨hends, hactive⟩))
      · refine .inl ?_
        unfold quietly
        rw [finish_of_not_active hactive]
    · exact .inl (finish_others commit heq)
  · by_cases heq : id = owner
    · exact .inr (.inr (.inl ⟨name, heq ▸ hon⟩))
    · exact .inl ((within_effect hon db).others id heq)

theorem workspace_begin (level : IsolationLevel) (db : Database) :
    ((Call.begin level).effect db).workspace db.nextTransaction = {} := workspace_setWorkspace db _ {}

theorem copies_of_ends {call : Call} (hends : call.Ends id) (hactive : (db.workspace id).state = .active) :
    ((call.effect db).workspace id).copies = .empty := by
  obtain ⟨commit, heffect, -⟩ := effect_of_ends hends
  rw [heffect]
  unfold quietly
  rw [finish_of_active hactive, workspace_setWorkspace]

/-- Numbers of transactions are counted up. -/
theorem nextTransaction_effect (call : Call) (db : Database) :
    (call.effect db).nextTransaction = db.nextTransaction ∨
      ∃ level, call = .begin level ∧ (call.effect db).nextTransaction = db.nextTransaction + 1 := by
  rcases call.cases with hnone | ⟨owner, howner, hends | ⟨name, hon⟩⟩
  · rcases effect_of_no_owner hnone db with ⟨level, rfl⟩ | ⟨-, hnext⟩
    · exact .inr ⟨level, rfl, rfl⟩
    · exact .inl hnext
  · obtain ⟨commit, heffect, -⟩ := effect_of_ends hends
    rw [heffect]
    exact .inl (finish_next commit)
  · exact .inl (within_effect hon db).next

/-! ## Numbers of transactions -/

/-- Of a transaction that is still to be begun nothing is known. -/
def Numbered (db : Database) : Prop :=
  ∀ id, db.nextTransaction ≤ id → (db.workspace id).state = .notStarted ∧ (db.workspace id).copies = .empty

theorem Numbered.lt (h : db.Numbered) (hstate : (db.workspace id).state ≠ .notStarted) : id < db.nextTransaction :=
  Nat.lt_of_not_le fun hle => hstate (h id hle).1

theorem Numbered.effect (h : db.Numbered) (call : Call) : (call.effect db).Numbered := by
  intro n hn
  have hle : db.nextTransaction ≤ n := by
    rcases nextTransaction_effect call db with hnext | ⟨level, -, hnext⟩ <;> omega
  obtain ⟨hstate, hcopies⟩ := h n hle
  have hidle : (db.workspace n).state ≠ .active := by
    rw [hstate]
    exact fun hc => by cases hc
  rcases workspace_cases call db n with hsame | ⟨level, rfl, rfl⟩ | ⟨name, hon⟩ | ⟨-, hactive⟩
  · rw [hsame]
    exact ⟨hstate, hcopies⟩
  · -- the number is that of the transaction that has just been begun, which is counted
    exact absurd hn (Nat.not_succ_le_self _)
  · have hwithin := within_effect hon db
    rw [hwithin.state, hwithin.ended hidle]
    exact ⟨hstate, hcopies⟩
  · exact absurd hactive hidle

/-- The database after some more calls. -/
def after (db : Database) (calls : List Call) : Database := calls.foldl (fun db call => call.effect db) db

theorem after_append (db : Database) (calls more : List Call) : db.after (calls ++ more) = (db.after calls).after more :=
  List.foldl_append

theorem run_append (before more : List Call) : run (before ++ more) = (run before).after more := List.foldl_append

/-- **What each call keeps in numbered databases, a run keeps.** -/
theorem keeps_run {P : Database → Prop} {more : List Call}
    (hstep : ∀ db, db.Numbered → P db → ∀ call ∈ more, P (call.effect db)) :
    ∀ db, db.Numbered → P db → P (db.after more) := by
  induction more with
  | nil => exact fun _ _ h => h
  | cons call more ih =>
    intro db hnumbered h
    exact ih (fun db hn h c hc => hstep db hn h c (List.mem_cons_of_mem _ hc)) _ (hnumbered.effect call)
      (hstep db hnumbered h call List.mem_cons_self)

theorem numbered_empty : Numbered {} := fun _ _ => ⟨rfl, rfl⟩

/-- **Every run numbers its transactions.** -/
theorem numbered_run (calls : List Call) : (run calls).Numbered :=
  keeps_run (P := Numbered) (fun _ hnumbered _ call _ => hnumbered.effect call) {} numbered_empty numbered_empty

/-- **Every run keeps a transaction's copies in order.** -/
theorem ascending_copies (calls : List Call) (id : Nat) : ((run calls).workspace id).copies.Ascending := by
  suffices hafter : ((after {} calls).workspace id).copies.Ascending from hafter
  refine keeps_run (P := fun db => (db.workspace id).copies.Ascending) (fun db _ h call _ => ?_) {} numbered_empty
    OrderedMap.ascending_empty
  rcases workspace_cases call db id with hsame | ⟨level, rfl, rfl⟩ | ⟨name, hon⟩ | ⟨hends, hactive⟩
  · rw [hsame]
    exact h
  · rw [workspace_begin]
    exact OrderedMap.ascending_empty
  · exact (within_effect hon db).ascending h
  · rw [copies_of_ends hends hactive]
    exact OrderedMap.ascending_empty

/-! ## Transactions that are over -/

/-- A transaction has been begun and has ended. -/
def Over (db : Database) (id : Nat) : Prop :=
  (db.workspace id).state = .committed ∨ (db.workspace id).state = .rolledBack

theorem over_of_ends {call : Call} (hends : call.Ends id) (hactive : (db.workspace id).state = .active) :
    (call.effect db).Over id := by
  obtain ⟨commit, heffect, -⟩ := effect_of_ends hends
  unfold Over
  rw [heffect]
  unfold quietly
  rw [finish_of_active hactive, workspace_setWorkspace]
  cases commit with
  | false => exact .inr rfl
  | true => exact .inl rfl

theorem Over.not_active (h : db.Over id) : (db.workspace id).state ≠ .active := by
  rcases h with h | h <;> rw [h] <;> exact fun hc => by cases hc

theorem Over.lt (h : db.Over id) (hnumbered : db.Numbered) : id < db.nextTransaction := by
  refine hnumbered.lt ?_
  rcases h with h | h <;> rw [h] <;> exact fun hc => by cases hc

theorem Over.effect (h : db.Over id) (hnumbered : db.Numbered) (call : Call) : (call.effect db).Over id := by
  unfold Over
  rcases workspace_cases call db id with hsame | ⟨level, -, heq⟩ | ⟨name, hon⟩ | ⟨-, hactive⟩
  · rw [hsame]
    exact h
  · exact absurd heq (Nat.ne_of_lt (h.lt hnumbered))
  · rw [(within_effect hon db).state]
    exact h
  · exact absurd hactive h.not_active

/-- **A transaction that is over stays over.** -/
theorem over_run {before : List Call} (h : (run before).Over id) (more : List Call) : (run (before ++ more)).Over id := by
  rw [run_append]
  exact keeps_run (P := fun db => db.Over id) (fun db hnumbered hover call _ => hover.effect hnumbered call) _
    (numbered_run before) h

end Database

/-- A call that looks into a table, writes to it or moves on in it by a cursor. -/
def Call.ByCursor : Call → Prop
  | search .. | readRow .. | insertRow .. | updateRow .. | deleteRow _ | advance .. => True
  | _ => False

open Attempt Bond Database in
/-- **A cursor whose transaction is not active can neither look, write nor move.** -/
theorem Call.fails_of_not_active {call : Call} (hcursor : call.ByCursor) {id : Nat} (howner : call.owner? = some id)
    {db : Database} (h : (db.workspace id).state ≠ .active) : ∃ e, (call.perform db).1.result = .error e := by
  -- next to itself the call may only answer if the transaction is active, and it is not
  have hfails : ∀ {α : Type} {name : String} {r : Except Error α} (give : α → Returned),
      Agree (workBond id name db).Answer r r → ∃ e, r.map give = .error e := by
    intro α name r give hr
    cases r with
    | error e => exact ⟨e, rfl⟩
    | ok a => exact absurd hr.2 h
  have hself : ∀ c : Cursor, c.transaction = id →
      (workBond id c.schema.name db).here id id c.schema.name (c, db) (c, db) := by
    rintro c rfl
    exact ⟨⟨c.id, rfl, rfl, rfl, rfl⟩, rfl, Within.refl _ _ db⟩
  have hlinks : ∀ c : Cursor, (workBond id c.schema.name db).Links id id c.schema.name := fun c =>
    links_workBond id c.schema.name db
  cases call with
  | search c tuple mode =>
    exact hfails _ ((hlinks c).search tuple mode _ _ (hself c (Option.some.inj howner))).1
  | readRow c tuple =>
    exact hfails _ ((hlinks c).readRow (tuple, c, db) _ ⟨rfl, hself c (Option.some.inj howner)⟩).1
  | insertRow c tuple cells =>
    exact hfails _ ((hlinks c).insertRow True.intro (tuple, c, db) _ ⟨rfl, hself c (Option.some.inj howner)⟩).1
  | updateRow c tuple cells =>
    exact hfails _ ((hlinks c).updateRow (fun _ => True.intro) (tuple, c, db) _ ⟨rfl, hself c (Option.some.inj howner)⟩).1
  | deleteRow c => exact hfails _ ((hlinks c).deleteRow (fun _ => True.intro) _ _ (hself c (Option.some.inj howner))).1
  | advance c direction =>
    exact hfails _ ((hlinks c).advance direction _ _ (hself c (Option.some.inj howner))).1
  | _ => exact hcursor.elim

end Memory
end RowStore

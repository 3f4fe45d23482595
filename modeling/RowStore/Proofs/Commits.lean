import RowStore.Proofs.EngineSteps
import RowStore.Proofs.PopulatedRuns

/-!
# What a commit publishes

A commit puts the transaction's copy of a table in the place of the committed table if the copy is marked.  It is marked as
soon as a write gets through to it, be it refused there or not (`marked_iff_begun`), and by nothing else.  So a
transaction that has begun no write to a table leaves the table as others have committed it
(`commits_publish_begun`); one whose only write has failed undoes what they have committed
(`failed_write_publishes`).
-/
namespace RowStore
namespace Memory

open Attempt

variable {α : Type}

/-- A write that gets through to a transaction's copy of a table, whatever becomes of it there. -/
def Call.BeginsWrite (id : Nat) (name : String) (db : Database) : Call → Prop
  | insertRow cursor tuple _ =>
    (cursor.transaction = id ∧ cursor.schema.name = name) ∧ cursor.checkWritable = .ok () ∧ tuple.disposed = false ∧
      ∃ t, db.Sees id name t
  | updateRow cursor tuple _ =>
    (cursor.transaction = id ∧ cursor.schema.name = name) ∧ cursor.checkWritable = .ok () ∧
      cursor.position.isSome ∧ tuple.disposed = false ∧ ∃ t, db.Sees id name t
  | deleteRow cursor =>
    (cursor.transaction = id ∧ cursor.schema.name = name) ∧ cursor.checkWritable = .ok () ∧
      cursor.position.isSome ∧ ∃ t, db.Sees id name t
  | _ => False

theorem Call.BeginsWrite.on {call : Call} {id : Nat} {name : String} {db : Database} (h : call.BeginsWrite id name db) :
    call.On id name := by
  cases call with
  | insertRow | updateRow | deleteRow => exact ⟨congrArg some h.1.1, congrArg some h.1.2⟩
  | _ => exact h.elim

namespace Database

variable {db : Database} {id : Nat} {name : String} {call : Call} {steps : List Call}

/-- A transaction has begun a write to a table in one of some calls. -/
def Begun (id : Nat) (name : String) (steps : List Call) : Prop :=
  ∃ before call, before ++ [call] <+: steps ∧ call.BeginsWrite id name (run before)

theorem begun_append_singleton (steps : List Call) (call : Call) :
    Begun id name (steps ++ [call]) ↔ Begun id name steps ∨ call.BeginsWrite id name (run steps) := by
  constructor
  · rintro ⟨before, c, hprefix, hbegins⟩
    rcases List.prefix_concat_iff.1 hprefix with heq | hprefix
    · obtain ⟨rfl, hcall⟩ := List.append_inj' heq rfl
      cases hcall
      exact .inr hbegins
    · exact .inl ⟨before, c, hprefix, hbegins⟩
  · rintro (⟨before, c, hprefix, hbegins⟩ | hbegins)
    · exact ⟨before, c, hprefix.trans (List.prefix_append _ _), hbegins⟩
    · exact ⟨steps, call, List.prefix_refl _, hbegins⟩

/-- A transaction that only reads a table begins no write to it. -/
theorem Begun.exists_writes (h : Begun id name steps) : ∃ call ∈ steps, call.On id name ∧ call.MayWrite := by
  obtain ⟨before, call, hprefix, hbegins⟩ := h
  refine ⟨call, hprefix.subset (List.mem_append_right _ List.mem_cons_self), hbegins.on, ?_⟩
  cases call with
  | insertRow | updateRow | deleteRow => exact True.intro
  | _ => exact hbegins.elim

/-! ## Marked copies -/

/-- A transaction's copy of a table will be published. -/
def Marked (db : Database) (id : Nat) (name : String) : Prop :=
  ∃ copy, (db.workspace id).copies.get? name = some copy ∧ copy.written = true

theorem marked_congr {db' : Database} (h : (db'.workspace id).copies.get? name = (db.workspace id).copies.get? name) :
    db'.Marked id name ↔ db.Marked id name := by
  unfold Marked
  rw [h]

/-- A copy that is made of the committed table is not marked. -/
theorem marked_iff_copy? : db.Marked id name ↔ ∃ copy, db.copy? id name = some copy ∧ copy.written = true := by
  unfold Marked copy?
  cases (db.workspace id).copies.get? name with
  | some copy => exact Iff.rfl
  | none =>
    constructor
    · rintro ⟨_, hc, -⟩
      cases hc
    · rintro ⟨copy, hc, hwritten⟩
      obtain ⟨t, -, rfl⟩ := Option.map_eq_some_iff.1 hc
      cases hwritten

/-- **Work on a copy marks it if it is meant to write**, and takes no mark away. -/
theorem marked_onTable (write : Bool) (work : Action Table α) :
    (onTable id name write work db).2.Marked id name ↔
      db.Marked id name ∨ (write = true ∧ ∃ t, db.Sees id name t) := by
  by_cases hactive : (db.workspace id).state = .active
  · have hmarked : db.Marked id name ↔ _ := marked_iff_copy?
    rw [onTable_of_active hactive, hmarked]
    cases hcopy : db.copy? id name with
    | none =>
      have hsees : ¬∃ t, db.Sees id name t := by
        rintro ⟨t, h⟩
        have htable := (sees_iff.1 h).2
        rw [hcopy] at htable
        cases htable
      rw [marked_iff_copy?, hcopy]
      simp [hsees]
    | some copy =>
      have hsees : ∃ t, db.Sees id name t := ⟨copy.table, sees_iff.2 ⟨hactive, by rw [hcopy]; rfl⟩⟩
      unfold Marked
      dsimp only
      rw [workspace_setWorkspace, OrderedMap.get?_insert_self]
      simp [hsees]
  · have hsees : ¬∃ t, db.Sees id name t := fun ⟨t, h⟩ => hactive h.active
    rw [onTable_of_not_active hactive]
    simp [hsees]

/-- One database next to itself, while a transaction reads a table. -/
def readBond (id : Nat) (name : String) (db : Database) : Bond :=
  .keeping (fun d => d.Marked id name ↔ db.Marked id name) True fun write _ => write = false

theorem links_readBond (id : Nat) (name : String) (db : Database) : (readBond id name db).Links id id name := by
  refine Bond.links_keeping (fun write work hread d h => ⟨fun _ _ => True.intro, ?_⟩) (fun _ _ => rfl)
    (fun d w h _ hcopies => (marked_congr ?_).trans h) fun _ _ h => h
  · rw [marked_onTable, or_iff_left fun hw => Bool.eq_false_iff.1 hread hw.1]
    exact h
  · rw [workspace_setWorkspace, hcopies]

/-! ## What a call marks -/

/-- A write marks the copy, and what is logged then marks nothing. -/
theorem marked_write (c : Cursor) (db : Database) (work : Action Table α) (operation : Operation) :
    ((Cursor.onTable true work >>= fun _ => Cursor.log operation) (c, db)).2.2.Marked c.transaction c.schema.name ↔
      db.Marked c.transaction c.schema.name ∨ ∃ t, db.Sees c.transaction c.schema.name t := by
  have hmarked : (onTable c.transaction c.schema.name true work db).2.Marked c.transaction c.schema.name ↔ _ :=
    marked_onTable true work
  have honTable : Cursor.onTable true work (c, db) = ((onTable c.transaction c.schema.name true work db).1, c,
      (onTable c.transaction c.schema.name true work db).2) := rfl
  rw [bind_apply, honTable]
  cases h : (onTable c.transaction c.schema.name true work db).1 with
  | error e => simpa using hmarked
  | ok a =>
    refine Iff.trans (marked_congr ?_) (by simpa using hmarked)
    dsimp only [Cursor.log, Attempt.modify, Database.record]
    rw [workspace_setWorkspace]

/-- A check that fails marks nothing. -/
theorem marked_checked {β σ : Type} (look : σ → Database) (r : Except Error β) {f : β → Action σ α} {s : σ}
    {Q : β → Prop} (hf : ∀ b, (look (f b s).2).Marked id name ↔ (look s).Marked id name ∨ Q b) :
    (look ((Attempt.ofExcept r >>= f) s).2).Marked id name ↔ (look s).Marked id name ∨ ∃ b, r = .ok b ∧ Q b := by
  cases r with
  | error e => exact ⟨.inl, fun h => h.elim (fun h => h) fun ⟨b, hb, _⟩ => by cases hb⟩
  | ok b =>
    refine (hf b).trans (or_congr_right ⟨fun hq => ⟨b, rfl, hq⟩, ?_⟩)
    rintro ⟨b', hb, hq⟩
    cases hb
    exact hq

theorem marked_staged (c : Cursor) (tuple : Tuple) (db : Database) (row : List Cell) (work : List Cell → Action Table α)
    (operation : Operation) :
    ((Cursor.stage row >>= fun staged => Attempt.below (ρ := Tuple)
        (Cursor.onTable true (work staged) >>= fun _ => Cursor.log operation)) (tuple, c, db)).2.2.2.Marked c.transaction
          c.schema.name ↔
      db.Marked c.transaction c.schema.name ∨
        tuple.disposed = false ∧ ∃ t, db.Sees c.transaction c.schema.name t := by
  rw [bind_apply, Cursor.stage_apply]
  cases hdisposed : tuple.disposed with
  | true => simp
  | false =>
    refine (marked_write c db (work row) operation).trans (or_congr_right ?_)
    simp

theorem exists_writable_iff (c : Cursor) {Q : Prop} :
    (∃ u : Unit, c.checkWritable = .ok u ∧ Q) ↔ c.checkWritable = .ok () ∧ Q :=
  ⟨fun ⟨_, h⟩ => h, fun h => ⟨(), h⟩⟩

theorem exists_resting_iff (c : Cursor) (otherwise : Status) {Q : Prop} :
    (∃ key, c.resting otherwise = .ok key ∧ Q) ↔ c.position.isSome ∧ Q := by
  unfold Cursor.resting
  cases c.position with
  | none => simp
  | some key => simp

/-- **A write of the engine marks the copy if it gets through to it.** -/
theorem marked_effect_write (hstep : call.IsStep) (hwrites : call.MayWrite) (hon : call.On id name) (db : Database) :
    (call.effect db).Marked id name ↔ db.Marked id name ∨ call.BeginsWrite id name db := by
  obtain ⟨hid, hname⟩ := hon
  cases call with
  | insertRow c tuple cells =>
    cases hid
    cases hname
    refine (marked_checked (fun s : Tuple × Cursor × Database => s.2.2) c.checkWritable fun _ =>
      marked_staged c tuple db cells Table.insert .inserted).trans (or_congr_right ?_)
    exact (exists_writable_iff c).trans (and_iff_right ⟨rfl, rfl⟩).symm
  | updateRow c tuple cells =>
    cases hid
    cases hname
    refine (marked_checked (fun s : Tuple × Cursor × Database => s.2.2) c.checkWritable fun _ =>
      marked_checked (fun s : Tuple × Cursor × Database => s.2.2) (c.resting .recordNotFound) fun key =>
        marked_staged c tuple db cells (Table.replace key) .updated).trans (or_congr_right ?_)
    refine (exists_writable_iff c).trans ((and_congr_right fun _ => exists_resting_iff c _).trans ?_)
    exact (and_iff_right ⟨rfl, rfl⟩).symm
  | deleteRow c =>
    cases hid
    cases hname
    refine (marked_checked (fun s : Cursor × Database => s.2) c.checkWritable fun _ =>
      marked_checked (fun s : Cursor × Database => s.2) (c.resting .recordNotFound) fun key =>
        marked_write c db (Table.remove key) .deleted).trans (or_congr_right ?_)
    refine (exists_writable_iff c).trans ((and_congr_right fun _ => exists_resting_iff c _).trans ?_)
    exact (and_iff_right ⟨rfl, rfl⟩).symm
  | insert | update | insertOrUpdate | delete => exact hstep.elim
  | _ => exact hwrites.elim

/-- **A call marks the copies to which it begins a write**, as long as the transaction is not over. -/
theorem marked_effect (hstep : call.IsStep) (hnumbered : db.Numbered) (hover : ¬(call.effect db).Over id) :
    (call.effect db).Marked id name ↔ db.Marked id name ∨ call.BeginsWrite id name db := by
  by_cases hon : call.On id name
  · by_cases hwrites : call.MayWrite
    · exact marked_effect_write hstep hwrites hon db
    · have hbegins : ¬call.BeginsWrite id name db := by
        cases call with
        | insertRow | updateRow | deleteRow => exact absurd True.intro hwrites
        | _ => exact fun h => h
      rw [or_iff_left hbegins]
      exact Bond.keeps_effect (links_readBond id name db) (Call.means_of_forall fun hw => absurd hw hwrites) hon Iff.rfl
  · rw [or_iff_left fun h => hon h.on]
    rcases workspace_cases call db id with hsame | ⟨level, rfl, rfl⟩ | ⟨name', hon'⟩ | ⟨hends, hactive⟩
    · exact marked_congr (by rw [hsame])
    · -- nothing was left under the number of the new transaction
      refine marked_congr ?_
      rw [workspace_begin, (hnumbered _ (Nat.le_refl _)).2]
    · have hne : name ≠ name' := fun heq => hon (heq ▸ hon')
      exact marked_congr ((within_effect hon' db).elsewhere name hne)
    · exact absurd (over_of_ends hends hactive) hover

/-- **The marked copies are those to which a write was begun**, of a transaction that is not over. -/
theorem marked_iff_begun {steps : List Call} (hsteps : ∀ step ∈ steps, step.IsStep) (hover : ¬(run steps).Over id) :
    (run steps).Marked id name ↔ Begun id name steps := by
  induction steps using List.reverseRecOn with
  | nil =>
    constructor
    · rintro ⟨copy, hcopy, -⟩
      cases hcopy
    · rintro ⟨before, call, hprefix, -⟩
      exact absurd (List.prefix_nil.1 hprefix) (List.append_ne_nil_of_right_ne_nil _ (List.cons_ne_nil _ _))
  | append_singleton steps call ih =>
    -- at the end of its transaction a mark is lost, but then the transaction is over for good
    have hbefore : ¬(run steps).Over id := fun h => hover (over_run h [call])
    have hlast : run (steps ++ [call]) = call.effect (run steps) := run_append steps [call]
    rw [hlast] at hover ⊢
    rw [begun_append_singleton, ← ih (fun s hs => hsteps s (List.mem_append_left _ hs)) hbefore]
    exact marked_effect (hsteps call (List.mem_append_right _ List.mem_cons_self)) (numbered_run steps) hover

/-! ## Publishing -/

/-- **What is committed under a name after copies have been published.** -/
theorem get?_publish {name : String} : ∀ {copies : List (String × Copy)} (tables : OrderedMap String Table),
    OrderedMap.Ascending ⟨copies⟩ →
      (publish tables ⟨copies⟩).get? name =
        match OrderedMap.get? ⟨copies⟩ name with
        | none => tables.get? name
        | some copy => if copy.written && tables.contains name then some copy.table else tables.get? name
  | [], _, _ => rfl
  | (k, copy) :: copies, tables, hascending => by
    obtain ⟨hfirst, hrest⟩ := List.pairwise_cons.1 hascending
    have hpublish : publish tables ⟨(k, copy) :: copies⟩ = publish
        (if copy.written && tables.contains k then tables.insert k copy.table else tables) ⟨copies⟩ := rfl
    rw [hpublish, get?_publish _ hrest]
    -- the name comes up once, so what is put under it stays
    by_cases heq : k = name
    · subst heq
      have hnone : OrderedMap.get? ⟨copies⟩ k = none := OrderedMap.get?_eq_none.2 fun e he heq => by
        have hlt := hfirst e he
        rw [OrderedMap.compare_eq_comm.1 heq] at hlt
        cases hlt
      have hsome : OrderedMap.get? ⟨(k, copy) :: copies⟩ k = some copy := by
        simp [OrderedMap.get?]
      rw [hnone, hsome]
      dsimp only
      split
      · exact OrderedMap.get?_insert_self
      · rfl
    · have hskip : OrderedMap.get? ⟨(k, copy) :: copies⟩ name = OrderedMap.get? ⟨copies⟩ name := by
        have hne : ¬compare k name = .eq := fun h => heq (Std.LawfulEqOrd.eq_of_compare h)
        simp [OrderedMap.get?, hne]
      have hother : (if copy.written && tables.contains k then tables.insert k copy.table else tables).get? name =
          tables.get? name := by
        split
        · exact OrderedMap.get?_insert_of_ne heq
        · rfl
      have hcontains : (if copy.written && tables.contains k then tables.insert k copy.table else tables).contains name =
          tables.contains name := congrArg Option.isSome hother
      rw [hskip, hcontains, hother]

/-- **A commit publishes the tables that the transaction has begun to write to**, and no others.  The calls may be any:
they come down to calls of the engine, and what counts are the writes among these. -/
theorem commits_publish_begun (calls : List Call) :
    (∃ steps, Expands calls steps) ∧ ∀ {steps : List Call}, Expands calls steps → ∀ {txn : Transaction} {db : Database},
      engine.commit txn (run calls) = (.ok (), db) → ∀ name,
        (¬Begun txn.id name steps → db.tables.get? name = (run calls).tables.get? name) ∧
          (Begun txn.id name steps → (run calls).tables.contains name →
            ∃ t, (run calls).Has txn.id name t ∧ db.tables.get? name = some t) := by
  refine ⟨exists_expansion calls, fun {steps} hsteps {txn db} hcommit name => ?_⟩
  have hactive : ((run calls).workspace txn.id).state = .active := by
    by_contra hne
    have hclosed : engine.commit txn (run calls) = (.error (.engine .transactionClosed), run calls) :=
      finish_of_not_active hne true
    rw [hclosed] at hcommit
    cases hcommit
  have hdb : db.tables = publish (run calls).tables ((run calls).workspace txn.id).copies := by
    have hpublish : engine.commit txn (run calls) = _ := finish_of_active hactive true
    rw [hpublish] at hcommit
    cases hcommit
    rfl
  have hmarked : (run calls).Marked txn.id name ↔ Begun txn.id name steps := by
    rw [← hsteps.run_eq]
    exact marked_iff_begun hsteps.isStep fun hover => hover.not_active (hsteps.run_eq ▸ hactive)
  rw [hdb, get?_publish _ (ascending_copies calls txn.id), ← hmarked]
  unfold Marked
  cases hcopy : ((run calls).workspace txn.id).copies.get? name with
  | none => exact ⟨fun _ => rfl, fun ⟨_, hc, _⟩ => (by cases hc)⟩
  | some copy =>
    dsimp only
    refine ⟨fun hnot => ?_, fun ⟨_, hc, hwritten⟩ hcontains => ?_⟩
    · rw [Bool.eq_false_iff.2 fun hwritten => hnot ⟨copy, rfl, hwritten⟩]
      rfl
    · cases hc
      refine ⟨copy.table, ⟨hactive, by rw [hcopy]; rfl⟩, ?_⟩
      rw [hwritten, hcontains]
      rfl

/-- One transaction has touched the table when another one adds a row and commits. -/
def readerCalls : List Call := peopleCalls ++
  [.begin .readCommitted, .openTable ⟨1, .readCommitted⟩ people,
    .openTable ⟨2, .readCommitted⟩ people,
    .insertRow { id := 1, transaction := 2, schema := people, index := none, exclusive := true }
      ⟨.clustered, [], [], false⟩ [.int 1, .text "ada"],
    .commit ⟨2, .readCommitted⟩]

theorem not_begun_readerCalls : ¬Begun 1 "people" readerCalls := by
  intro h
  obtain ⟨call, hcall, hon, hwrites⟩ := h.exists_writes
  unfold readerCalls peopleCalls at hcall
  fin_cases hcall
  · exact hwrites
  · exact hwrites
  · exact hwrites
  · exact hwrites
  · exact hwrites
  · exact absurd (Option.some.inj hon.1) (by decide)
  · exact hwrites

/-- The reader commits, and the row stays. -/
theorem commits_publish_begun_reader :
    (engine.commit ⟨1, .readCommitted⟩ (run readerCalls)).2.tables.get? "people" =
        (run readerCalls).tables.get? "people" ∧
      rowCount (run readerCalls) "people" = .ok 1 := by
  have hsteps : Expands readerCalls readerCalls := Expands.of_steps fun call hcall => by
    unfold readerCalls peopleCalls at hcall
    fin_cases hcall <;> exact True.intro
  have hcommit : engine.commit ⟨1, .readCommitted⟩ (run readerCalls) =
      (.ok (), (engine.commit ⟨1, .readCommitted⟩ (run readerCalls)).2) := Prod.ext (by cbv) rfl
  exact ⟨((commits_publish_begun readerCalls).2 hsteps hcommit "people").1 not_begun_readerCalls, by cbv⟩

/-- A transaction whose only write is refused, while another one adds a row and commits. -/
def refusedCalls : List Call := peopleCalls ++
  [.insert ⟨1, .readCommitted⟩ people (person 1 "ada"), .commit ⟨1, .readCommitted⟩, .begin .readCommitted,
    .insert ⟨2, .readCommitted⟩ people (person 1 "bob"), .begin .readCommitted,
    .insert ⟨3, .readCommitted⟩ people (person 2 "eve"), .commit ⟨3, .readCommitted⟩]

/-- It commits, and the row is gone. -/
theorem failed_write_publishes :
    (Call.answers (fun call => call.owner? = some 2) refusedCalls {}).map (·.result) = [.error (.engine .duplicateKey)] ∧
      rowCount (run refusedCalls) "people" = .ok 2 ∧
      (engine.commit ⟨2, .readCommitted⟩ (run refusedCalls)).1 = .ok () ∧
      rowCount (engine.commit ⟨2, .readCommitted⟩ (run refusedCalls)).2 "people" = .ok 1 :=
  ⟨by cbv, by cbv, by cbv, by cbv⟩

end Database
end Memory
end RowStore

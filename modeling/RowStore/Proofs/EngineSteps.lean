import RowStore.Proofs.CallFrames

/-!
# Calls are made of the engine's calls

A call on rows does nothing to a database that the engine's own calls do not do: it is a list of these, all in its
transaction and on its table, with releases of tuples between them (`exists_steps`).  So whatever calls have been made of a
database, the engine's calls have been made of it, one after the other (`exists_expansion`).
-/
namespace RowStore
namespace Memory

open Attempt

namespace Call

/-- A call of the engine itself. -/
def IsStep : Call → Prop
  | load .. | insert .. | update .. | insertOrUpdate .. | delete .. => False
  | _ => True

/-- A call of the engine on a table, or the release of a tuple. -/
def Serves (id : Nat) (name : String) (call : Call) : Prop :=
  call.IsStep ∧ (call.On id name ∨ ∃ tuple, call = .disposeTuple tuple)

end Call

namespace Database

/-- The engine's calls on a table lead from one database to the other. -/
def Reaches (id : Nat) (name : String) (db db' : Database) : Prop :=
  ∃ steps : List Call, (∀ step ∈ steps, step.Serves id name) ∧ db' = db.after steps

variable {α : Type} {db db' : Database} {id : Nat} {name : String}

theorem Reaches.step (h : Reaches id name db db') {call : Call} (hcall : call.Serves id name) :
    Reaches id name db (call.effect db') := by
  obtain ⟨steps, hsteps, rfl⟩ := h
  refine ⟨steps ++ [call], fun s hs => ?_, ?_⟩
  · rcases List.mem_append.1 hs with hs | hs
    · exact hsteps s hs
    · exact List.mem_singleton.1 hs ▸ hcall
  · rw [after_append]
    rfl

/-! ## The engine's calls, one by one -/

/-- Nothing but one database, next to itself. -/
def sameBond : Bond := .keeping fun _ => True

theorem links_sameBond (id : Nat) (name : String) : sameBond.Links id id name :=
  Bond.links_keeping (fun _ _ _ _ _ => ⟨fun _ _ => True.intro, True.intro⟩) (fun _ _ => True.intro)
    (fun _ _ _ _ _ => True.intro) fun _ _ _ => True.intro

/-- One cursor on a table, next to itself. -/
def Own (id : Nat) (name : String) (c c' : Cursor) : Prop := c' = c ∧ c.transaction = id ∧ c.schema.name = name

theorem alike_sameBond_iff {c c' : Cursor} : sameBond.Alike id id name c c' ↔ Own id name c c' := by
  constructor
  · rintro ⟨_, rfl, rfl, rfl, hname⟩
    exact ⟨rfl, rfl, hname⟩
  · rintro ⟨rfl, rfl, hname⟩
    exact ⟨_, rfl, rfl, rfl, hname⟩

/-- One database that the engine's calls lead to, next to itself. -/
def Reached (id : Nat) (name : String) (db d d' : Database) : Prop := d' = d ∧ Reaches id name db d

theorem reaches_onCursor {m : Action (Cursor × Database) α} (hm : Mirrors (sameBond.here id id name) (· = ·) m m)
    (hcall : ∀ c d, c.transaction = id → c.schema.name = name →
      ∃ call : Call, call.Serves id name ∧ (m (c, d)).2.2 = call.effect d) :
    Mirrors (Both (Own id name) (Reached id name db)) (· = ·) m m := by
  rintro ⟨_, _⟩ ⟨c, d⟩ ⟨⟨rfl, htxn, hname⟩, rfl, hreaches⟩
  obtain ⟨hr, hc, -⟩ := hm (c, d) (c, d) ⟨alike_sameBond_iff.2 ⟨rfl, htxn, hname⟩, rfl, True.intro⟩
  obtain ⟨call, hserves, heffect⟩ := hcall c d htxn hname
  refine ⟨hr, alike_sameBond_iff.1 hc, rfl, ?_⟩
  rw [heffect]
  exact hreaches.step hserves

theorem reaches_onTuple {m : Action (Tuple × Cursor × Database) α}
    (hm : Mirrors (Both (· = ·) (sameBond.here id id name)) (· = ·) m m)
    (hcall : ∀ tuple c d, c.transaction = id → c.schema.name = name →
      ∃ call : Call, call.Serves id name ∧ (m (tuple, c, d)).2.2.2 = call.effect d) :
    Mirrors (Both (· = ·) (Both (Own id name) (Reached id name db))) (· = ·) m m := by
  rintro ⟨tuple, _, _⟩ ⟨_, c, d⟩ ⟨htuple, ⟨hc, htxn, hname⟩, hd, hreaches⟩
  dsimp only at htuple hc hd htxn hname hreaches
  subst htuple hc hd
  obtain ⟨hr, htuple, hc, -⟩ := hm (tuple, c, d) (tuple, c, d) ⟨rfl, alike_sameBond_iff.2 ⟨rfl, htxn, hname⟩, rfl, True.intro⟩
  obtain ⟨call, hserves, heffect⟩ := hcall tuple c d htxn hname
  refine ⟨hr, htuple, alike_sameBond_iff.1 hc, rfl, ?_⟩
  rw [heffect]
  exact hreaches.step hserves

/-- **The engine's calls lead on.** -/
theorem mirrors_reached {schema : TableSchema} (hname : schema.name = name) (level : IsolationLevel) (db : Database) :
    engine.Mirrors (Reached id name db) (Own id name) {} ⟨id, level⟩ ⟨id, level⟩ schema := by
  have hsame := (links_sameBond id name).mirrors_engine hname level level
  have hserves : ∀ {c : Cursor} (call : Call), call.IsStep → call.owner? = some c.transaction →
      call.table? = some c.schema.name → c.transaction = id → c.schema.name = name → call.Serves id name := by
    rintro c call hstep howner htable rfl rfl
    exact ⟨hstep, .inl ⟨howner, htable⟩⟩
  constructor
  case openTable =>
    rintro _ d ⟨rfl, hreaches⟩
    obtain ⟨hr, -⟩ := hsame.openTable d d ⟨rfl, True.intro⟩
    have hserves : (Call.openTable ⟨id, level⟩ schema).Serves id name := ⟨True.intro, .inl ⟨rfl, congrArg some hname⟩⟩
    refine ⟨?_, rfl, hreaches.step hserves⟩
    cases h : (engine.openTable ⟨id, level⟩ schema d).1 with
    | error e => exact rfl
    | ok c =>
      rw [h] at hr
      exact alike_sameBond_iff.1 hr
  case setLockMode =>
    exact fun mode => reaches_onCursor (hsame.setLockMode mode) fun c d htxn hname =>
      ⟨.setLockMode c mode, hserves _ True.intro rfl rfl htxn hname, rfl⟩
  case lock =>
    exact fun mode => reaches_onCursor (hsame.lock mode) fun c d htxn hname =>
      ⟨.lock c mode, hserves _ True.intro rfl rfl htxn hname, rfl⟩
  case searchTuple =>
    exact fun key => reaches_onCursor (hsame.searchTuple key) fun c d htxn hname =>
      ⟨.searchTuple c key, hserves _ True.intro rfl rfl htxn hname, rfl⟩
  case readTuple =>
    exact reaches_onCursor hsame.readTuple fun c d htxn hname =>
      ⟨.readTuple c, hserves _ True.intro rfl rfl htxn hname, rfl⟩
  case search =>
    exact fun tuple mode => reaches_onCursor (hsame.search tuple mode) fun c d htxn hname =>
      ⟨.search c tuple mode, hserves _ True.intro rfl rfl htxn hname, rfl⟩
  case hasNext =>
    rintro ⟨_, _⟩ ⟨c, d⟩ ⟨⟨rfl, -⟩, rfl, -⟩
    rfl
  case readRow =>
    exact reaches_onTuple hsame.readRow fun tuple c d htxn hname =>
      ⟨.readRow c tuple, hserves _ True.intro rfl rfl htxn hname, rfl⟩
  case insertRow =>
    exact fun cells _ => reaches_onTuple (hsame.insertRow cells True.intro) fun tuple c d htxn hname =>
      ⟨.insertRow c tuple cells, hserves _ True.intro rfl rfl htxn hname, rfl⟩
  case updateRow =>
    exact fun cells _ => reaches_onTuple (hsame.updateRow cells fun _ => True.intro) fun tuple c d htxn hname =>
      ⟨.updateRow c tuple cells, hserves _ True.intro rfl rfl htxn hname, rfl⟩
  case deleteRow =>
    exact fun _ => reaches_onCursor (hsame.deleteRow fun _ => True.intro) fun c d htxn hname =>
      ⟨.deleteRow c, hserves _ True.intro rfl rfl htxn hname, rfl⟩
  case close =>
    exact reaches_onCursor hsame.close fun c d htxn hname =>
      ⟨.closeCursor c, hserves _ True.intro rfl rfl htxn hname, rfl⟩
  case letGoCursor =>
    rintro _ c _ d ⟨rfl, htxn, hname⟩ ⟨rfl, hreaches⟩
    exact ⟨rfl, hreaches.step (hserves (.letGoCursor c) True.intro rfl rfl htxn hname)⟩
  case tupleReleased =>
    rintro _ d ⟨rfl, hreaches⟩
    have hserves : (Call.disposeTuple ⟨.clustered, [], [], false⟩).Serves id name := ⟨True.intro, .inr ⟨_, rfl⟩⟩
    exact ⟨rfl, hreaches.step hserves⟩

/-! ## All calls -/

/-- **A call on rows is made of the engine's calls.** -/
theorem exists_steps {call : Call} (hstep : ¬call.IsStep) (hon : call.On id name) (db : Database) :
    Reaches id name db (call.effect db) := by
  have hreached : ∀ (txn : Transaction) (schema : TableSchema), some txn.id = some id → some schema.name = some name →
      engine.Mirrors (Reached id name db) (Own id name) {} txn txn schema := by
    rintro txn schema ⟨⟩ ⟨⟩
    exact mirrors_reached rfl txn.level db
  have hself : Reached id name db db db := ⟨rfl, [], fun _ h => absurd h List.not_mem_nil, rfl⟩
  obtain ⟨hid, hname⟩ := hon
  cases call with
  | load txn schema key =>
    exact ((hreached txn schema hid hname).load key db db hself).2.2
  | insert txn schema row =>
    exact ((hreached txn schema hid hname).insert (fun _ _ => True.intro) db db hself).2.2
  | update txn schema row =>
    exact ((hreached txn schema hid hname).update (fun _ _ => True.intro) db db hself).2.2
  | insertOrUpdate txn schema row =>
    exact ((hreached txn schema hid hname).insertOrUpdate (fun _ _ => True.intro) (fun _ _ => True.intro) db db hself).2.2
  | delete txn schema key =>
    exact ((hreached txn schema hid hname).delete True.intro key db db hself).2.2
  | _ => exact absurd True.intro hstep

/-- The calls of the engine that some calls come down to: a call of the engine is one of them itself, and a call on rows
is made of them. -/
inductive Expands : List Call → List Call → Prop
  | nil : Expands [] []
  | step {calls steps : List Call} {call : Call} : Expands calls steps → call.IsStep →
      Expands (calls ++ [call]) (steps ++ [call])
  | rows {calls steps part : List Call} {call : Call} {id : Nat} {name : String} : Expands calls steps → ¬call.IsStep →
      call.On id name → (∀ step ∈ part, step.Serves id name) → call.effect (run calls) = (run calls).after part →
        Expands (calls ++ [call]) (steps ++ part)

namespace Expands

variable {calls steps : List Call}

theorem run_eq (h : Expands calls steps) : run steps = run calls := by
  induction h with
  | nil => rfl
  | step _ _ ih =>
    rw [run_append, run_append, ih]
  | rows _ _ _ _ heffect ih =>
    rw [run_append, run_append, ih]
    exact heffect.symm

theorem isStep (h : Expands calls steps) : ∀ step ∈ steps, step.IsStep := by
  induction h with
  | nil => exact fun _ h => absurd h List.not_mem_nil
  | step _ hstep ih =>
    intro s hs
    rcases List.mem_append.1 hs with hs | hs
    · exact ih s hs
    · exact List.mem_singleton.1 hs ▸ hstep
  | rows _ _ _ hpart _ ih =>
    intro s hs
    rcases List.mem_append.1 hs with hs | hs
    · exact ih s hs
    · exact (hpart s hs).1

/-- Calls of the engine come down to themselves. -/
theorem of_steps {calls : List Call} (h : ∀ call ∈ calls, call.IsStep) : Expands calls calls := by
  induction calls using List.reverseRecOn with
  | nil => exact .nil
  | append_singleton calls call ih =>
    exact (ih fun c hc => h c (List.mem_append_left _ hc)).step (h call (List.mem_append_right _ List.mem_cons_self))

end Expands

/-- **Whatever calls are made of a database, they come down to calls of the engine.** -/
theorem exists_expansion (calls : List Call) : ∃ steps, Expands calls steps := by
  induction calls using List.reverseRecOn with
  | nil => exact ⟨[], .nil⟩
  | append_singleton calls call ih =>
    obtain ⟨steps, hsteps⟩ := ih
    by_cases hstep : call.IsStep
    · exact ⟨_, hsteps.step hstep⟩
    · obtain ⟨id, name, hon⟩ : ∃ id name, call.On id name := by
        cases call with
        | load txn schema _ | insert txn schema _ | update txn schema _ | insertOrUpdate txn schema _
        | delete txn schema _ => exact ⟨txn.id, schema.name, rfl, rfl⟩
        | _ => exact absurd True.intro hstep
      obtain ⟨part, hpart, heffect⟩ := exists_steps hstep hon (run calls)
      exact ⟨_, hsteps.rows hstep hon hpart heffect⟩

end Database
end Memory
end RowStore

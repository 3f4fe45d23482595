import RowStore.Proofs.Commits

/-!
# Under which definition a table is stored

A table that is dropped stays dropped until it is created again, whatever transactions still have copies of it.  A
transaction whose copy is older than a drop (`Stale`) publishes it all the same if the name has been taken again
(`Revives`): the commit asks for the name only.  As long as no commit does that, each table is stored under the definition
of the last creation of its name that succeeded, and copies come with that definition unless they are older than a drop
(`Current`, `current_run`).  A commit that does it brings the definition of the dropped table back
(`definitions_last_created`, `stale_commit_revives`).
-/
namespace RowStore
namespace Memory

open Attempt

namespace Table

/-! ## Writes keep the definition -/

theorem schema_insert (row : List Cell) (t : Table) : (insert row t).2.schema = t.schema := by
  rw [insert_apply]
  cases t.rejection? row <;> rfl

theorem schema_remove (key : Key) (t : Table) : (remove key t).2.schema = t.schema := by
  rw [remove_apply]
  cases t.rows.get? key <;> rfl

theorem schema_replace (key : Key) (row : List Cell) (t : Table) : (replace key row t).2.schema = t.schema := by
  show ((Attempt.state >>= fun table => _) t).2.schema = _
  rw [bind_apply]
  simp only [Attempt.state]
  split
  · rfl
  · rw [bind_apply, ← schema_remove key t]
    rcases remove key t with ⟨_ | old, u⟩
    · rfl
    · dsimp only
      rw [bind_apply, ← schema_insert row u]
      unfold Attempt.outcome
      rcases insert row u with ⟨e | _, v⟩
      · dsimp only
        rw [bind_apply, ← schema_insert old v]
        rcases insert old v with ⟨_ | _, w⟩ <;> rfl
      · rfl

end Table

/-- The definition under which a call creates the table of a name, if it does. -/
def Call.creates? (name : String) (db : Database) : Call → Option TableSchema
  | createTable d =>
    match d.build with
    | .ok schema => if schema.name = name ∧ db.tableExists name = false then some schema else none
    | .error _ => none
  | _ => none

namespace Database

variable {db : Database} {id : Nat} {name : String} {calls more : List Call} {call : Call} {schema : TableSchema}

/-- The definition of the last creation of a table that succeeds among some calls. -/
def lastCreation? (name : String) : List Call → Database → Option TableSchema
  | [], _ => none
  | call :: calls, db => (lastCreation? name calls (call.effect db)).or (call.creates? name db)

theorem lastCreation?_append_singleton (call : Call) : ∀ (calls : List Call) (db : Database),
    lastCreation? name (calls ++ [call]) db = (call.creates? name (db.after calls)).or (lastCreation? name calls db)
  | [], db => Option.or_none.symm
  | c :: calls, db => by
    rw [List.cons_append, lastCreation?, lastCreation?_append_singleton call calls, lastCreation?, Option.or_assoc]
    rfl

theorem lastCreation?_eq_of_creates? (h : call.creates? name (run calls) = none) :
    lastCreation? name (calls ++ [call]) {} = lastCreation? name calls {} := by
  have hcreates : call.creates? name (after {} calls) = none := h
  rw [lastCreation?_append_singleton, hcreates, Option.none_or]

/-- What a call makes of the committed table of a name. -/
inductive Becomes (name : String) (db : Database) : Call → Option Table → Prop
  | created {call : Call} {schema : TableSchema} : call.creates? name db = some schema → db.tables.get? name = none →
    Becomes name db call (some (.new schema))
  | dropped : db.tableExists name = true → Becomes name db (.dropTable name) none
  | truncated {t : Table} : db.tables.get? name = some t → Becomes name db (.truncateTable name) (some (.new t.schema))
  | published {txn : Transaction} {copy : Copy} : (db.workspace txn.id).copies.get? name = some copy → copy.written = true →
    db.tableExists name = true → Becomes name db (.commit txn) (some copy.table)
  | kept {call : Call} : call.creates? name db = none → Becomes name db call (db.tables.get? name)

theorem becomes_of_same {t : Option Table} (hcreates : call.creates? name db = none) (h : t = db.tables.get? name) :
    Becomes name db call t := h ▸ .kept hcreates

theorem becomes_createTable (d : Declaration) :
    Becomes name db (.createTable d) (((Call.createTable d).effect db).tables.get? name) := by
  cases hbuild : d.build with
  | error e => exact becomes_of_same (by rw [Call.creates?, hbuild]) (by rw [Call.effect, hbuild])
  | ok schema =>
    have heffect : (Call.createTable d).effect db = (createTable schema db).2 := by
      rw [Call.effect, hbuild]
      rfl
    rw [heffect]
    unfold createTable
    by_cases hexists : db.tables.contains schema.name = true
    · rw [if_pos hexists]
      refine .kept ?_
      rw [Call.creates?, hbuild]
      refine if_neg ?_
      rintro ⟨rfl, hnot⟩
      exact absurd hexists (Bool.eq_false_iff.1 hnot)
    · rw [if_neg hexists]
      by_cases heq : schema.name = name
      · subst heq
        have hcreates : (Call.createTable d).creates? schema.name db = some schema := by
          rw [Call.creates?, hbuild]
          exact if_pos ⟨rfl, Bool.eq_false_iff.2 hexists⟩
        dsimp only
        rw [OrderedMap.get?_insert_self]
        exact .created hcreates (Option.not_isSome_iff_eq_none.1 hexists)
      · refine becomes_of_same ?_ (OrderedMap.get?_insert_of_ne heq)
        rw [Call.creates?, hbuild]
        exact if_neg fun h => heq h.1

theorem becomes_dropTable (other : String) :
    Becomes name db (.dropTable other) (((Call.dropTable other).effect db).tables.get? name) := by
  dsimp only [Call.effect, quietly]
  unfold dropTable
  split
  · rename_i hexists
    dsimp only
    rw [OrderedMap.get?_erase]
    split
    · rename_i heq
      cases Std.LawfulEqOrd.eq_of_compare heq
      exact .dropped hexists
    · exact .kept rfl
  · exact .kept rfl

theorem becomes_truncateTable (other : String) :
    Becomes name db (.truncateTable other) (((Call.truncateTable other).effect db).tables.get? name) := by
  dsimp only [Call.effect, quietly]
  unfold truncateTable
  split
  · rename_i t ht
    dsimp only
    rw [OrderedMap.get?_insert]
    split
    · rename_i heq
      cases Std.LawfulEqOrd.eq_of_compare heq
      exact .truncated ht
    · exact .kept rfl
  · exact .kept rfl

theorem becomes_commit (txn : Transaction) (hascending : (db.workspace txn.id).copies.Ascending) :
    Becomes name db (.commit txn) (((Call.commit txn).effect db).tables.get? name) := by
  show Becomes name db _ ((finish txn.id true db).2.tables.get? name)
  by_cases hactive : (db.workspace txn.id).state = .active
  · rw [finish_of_active hactive]
    show Becomes name db _ ((publish db.tables (db.workspace txn.id).copies).get? name)
    rw [get?_publish _ hascending]
    cases hcopy : (db.workspace txn.id).copies.get? name with
    | none => exact .kept rfl
    | some copy =>
      dsimp only
      split
      · rename_i hpublished
        obtain ⟨hwritten, hexists⟩ := Bool.and_eq_true_iff.1 hpublished
        exact .published hcopy hwritten hexists
      · exact .kept rfl
  · rw [finish_of_not_active hactive]
    exact .kept rfl

/-- **The ways in which a call changes the committed table of a name.** -/
theorem becomes_effect (name : String) (hascending : ∀ id, (db.workspace id).copies.Ascending) (call : Call) :
    Becomes name db call ((call.effect db).tables.get? name) := by
  rcases call.cases with hnone | ⟨id, howner, hends | ⟨other, hon⟩⟩
  · cases call with
    | createTable d => exact becomes_createTable d
    | dropTable other => exact becomes_dropTable other
    | truncateTable other => exact becomes_truncateTable other
    | begin level => exact .kept rfl
    | disposeTuple tuple =>
      refine becomes_of_same rfl ?_
      dsimp only [Call.effect, quietly]
      rw [Tuple.dispose_apply]
      split <;> rfl
    | _ => cases hnone
  · cases call with
    | commit txn => exact becomes_commit txn (hascending _)
    | rollback txn =>
      refine becomes_of_same rfl ?_
      show (finish txn.id false db).2.tables.get? name = _
      by_cases hactive : (db.workspace txn.id).state = .active
      · rw [finish_of_active hactive]
        rfl
      · rw [finish_of_not_active hactive]
    | createTable | dropTable | truncateTable | begin | disposeTuple => cases howner
    | _ => cases hends.2
  · refine becomes_of_same ?_ (by rw [(within_effect hon db).tables])
    cases call with
    | createTable => cases hon.1
    | _ => rfl

/-- So does the last call of a run. -/
theorem becomes_run (name : String) (calls : List Call) (call : Call) :
    Becomes name (run calls) call ((run (calls ++ [call])).tables.get? name) := by
  rw [show run (calls ++ [call]) = call.effect (run calls) from run_append calls [call]]
  exact becomes_effect name (fun id => ascending_copies calls id) call

/-! ## Dropped tables -/

theorem tableExists_eq_false : db.tableExists name = false ↔ db.tables.get? name = none :=
  Option.isSome_eq_false_iff.trans Option.isNone_iff_eq_none

/-- A table that is not there is there after a call only if the call creates it. -/
theorem Becomes.absent {t : Option Table} (h : Becomes name db call t) (hnone : db.tables.get? name = none)
    (hcreates : call.creates? name db = none) : t = none := by
  cases h with
  | created hc _ =>
    rw [hcreates] at hc
    cases hc
  | dropped => rfl
  | truncated ht =>
    rw [hnone] at ht
    cases ht
  | published _ _ hexists =>
    rw [tableExists_eq_false.2 hnone] at hexists
    cases hexists
  | kept => exact hnone

/-- **A table that is not there stays away** until a call creates it. -/
theorem absent_run (more : List Call) : ∀ {calls : List Call}, (run calls).tableExists name = false →
    lastCreation? name more (run calls) = none → (run (calls ++ more)).tableExists name = false := by
  induction more with
  | nil =>
    intro calls h _
    rw [List.append_nil]
    exact h
  | cons call more ih =>
    intro calls h hcreation
    obtain ⟨hmore, hcreates⟩ := Option.or_eq_none_iff.1 hcreation
    have hrun : run (calls ++ [call]) = call.effect (run calls) := run_append calls [call]
    have habsent := (becomes_run name calls call).absent (tableExists_eq_false.1 h) hcreates
    rw [List.append_cons]
    exact ih (tableExists_eq_false.2 habsent) (hrun ▸ hmore)

/-! ## Definitions of copies -/

/-- A transaction has a copy of a table. -/
def HasCopy (db : Database) (id : Nat) (name : String) : Prop := (db.workspace id).copies.contains name = true

/-- One database next to a later one: the transaction has kept its copy, and the definition of what it works on. -/
structure KeepsDefinition (id : Nat) (name : String) (db db' : Database) : Prop where
  hasCopy : db.HasCopy id name → db'.HasCopy id name
  schema : ∀ copy, db'.copy? id name = some copy →
    ∃ before, db.copy? id name = some before ∧ copy.table.schema = before.table.schema

theorem KeepsDefinition.refl (id : Nat) (name : String) (db : Database) : KeepsDefinition id name db db :=
  ⟨fun h => h, fun copy hcopy => ⟨copy, hcopy, rfl⟩⟩

def definitionBond (id : Nat) (name : String) (db : Database) : Bond :=
  .keeping (KeepsDefinition id name db) True fun _ work => ∀ t, (work t).2.schema = t.schema

theorem links_definitionBond (id : Nat) (name : String) (db : Database) : (definitionBond id name db).Links id id name := by
  refine Bond.links_keeping (fun write work hwork d h => ⟨fun _ _ => True.intro, ?_⟩) (fun work hlook t => ?_)
    (fun d w h _ hcopies => ?_) fun d l h => ⟨h.hasCopy, h.schema⟩
  · by_cases hactive : (d.workspace id).state = .active
    · rw [onTable_of_active hactive]
      cases hnow : d.copy? id name with
      | none => exact h
      | some now =>
        refine ⟨fun _ => ?_, fun copy hcopy => ?_⟩
        · unfold HasCopy OrderedMap.contains
          rw [workspace_setWorkspace, OrderedMap.get?_insert_self]
          rfl
        · obtain ⟨before, hbefore, hschema⟩ := h.schema now hnow
          unfold copy? at hcopy
          rw [workspace_setWorkspace, OrderedMap.get?_insert_self] at hcopy
          cases hcopy
          exact ⟨before, hbefore, (hwork _).trans hschema⟩
    · rw [onTable_of_not_active hactive]
      exact h
  · rw [hlook t]
  · have hcopy : (d.setWorkspace id w).copy? id name = d.copy? id name := by
      unfold copy?
      rw [workspace_setWorkspace, hcopies]
      rfl
    refine ⟨fun hhas => ?_, hcopy ▸ h.schema⟩
    unfold HasCopy
    rw [workspace_setWorkspace, hcopies]
    exact h.hasCopy hhas

theorem means_definitionBond (call : Call) (id : Nat) (name : String) (db : Database) :
    call.Means (definitionBond id name db) := by
  cases call with
  | insertRow _ _ cells => exact Table.schema_insert cells
  | updateRow _ _ cells => exact fun key => Table.schema_replace key cells
  | insert => exact fun payload _ => Table.schema_insert payload
  | update => exact fun payload _ key => Table.schema_replace key payload
  | insertOrUpdate => exact fun payload _ => ⟨Table.schema_insert payload, fun key => Table.schema_replace key payload⟩
  | deleteRow | delete => exact fun key => Table.schema_remove key
  | _ => exact True.intro

theorem keepsDefinition_effect (hon : call.On id name) (db : Database) : KeepsDefinition id name db (call.effect db) :=
  Bond.keeps_effect (links_definitionBond id name db) (means_definitionBond call id name db) hon (.refl id name db)

/-- **A copy has the definition of the copy that it was before the call**, or of the table of which the call made it. -/
theorem exists_before_copy {copy : Copy} (h : ((call.effect db).workspace id).copies.get? name = some copy) :
    ∃ before, db.copy? id name = some before ∧ copy.table.schema = before.table.schema := by
  have hsame : (db.workspace id).copies.get? name = some copy →
      ∃ before, db.copy? id name = some before ∧ copy.table.schema = before.table.schema := fun hcopy =>
    ⟨copy, by rw [copy?, hcopy, Option.some_or], rfl⟩
  rcases workspace_cases call db id with hworkspace | ⟨level, rfl, rfl⟩ | ⟨other, hon⟩ | ⟨hends, hactive⟩
  · exact hsame (hworkspace ▸ h)
  · rw [workspace_begin] at h
    cases h
  · by_cases heq : name = other
    · subst heq
      exact (keepsDefinition_effect hon db).schema copy (by rw [copy?, h, Option.some_or])
    · exact hsame ((within_effect hon db).elsewhere name heq ▸ h)
  · rw [copies_of_ends hends hactive] at h
    cases h

/-- A transaction has a copy with a certain definition, or is over and has none. -/
def HasOrOver (schema : TableSchema) (id : Nat) (name : String) (db : Database) : Prop :=
  (∃ copy, (db.workspace id).copies.get? name = some copy ∧ copy.table.schema = schema) ∨
    (db.Over id ∧ (db.workspace id).copies = .empty)

theorem HasOrOver.effect (hnumbered : db.Numbered) (h : HasOrOver schema id name db) (call : Call) :
    HasOrOver schema id name (call.effect db) := by
  rcases h with ⟨copy, hcopy, hschema⟩ | ⟨hover, hempty⟩
  · have hhas : db.HasCopy id name := by rw [HasCopy, OrderedMap.contains, hcopy]; rfl
    suffices hstill : (call.effect db).HasCopy id name ∨
        ((call.effect db).Over id ∧ ((call.effect db).workspace id).copies = .empty) by
      refine hstill.imp (fun hhas => ?_) fun hover => hover
      obtain ⟨after, hafter⟩ := Option.isSome_iff_exists.1 hhas
      obtain ⟨before, hbefore, hsame⟩ := exists_before_copy hafter
      rw [copy?, hcopy, Option.some_or] at hbefore
      cases hbefore
      exact ⟨after, hafter, hsame.trans hschema⟩
    unfold HasCopy at hhas ⊢
    rcases workspace_cases call db id with hworkspace | ⟨level, rfl, rfl⟩ | ⟨other, hon⟩ | ⟨hends, hactive⟩
    · exact .inl (hworkspace ▸ hhas)
    · -- a transaction that is being begun has no copies yet
      rw [(hnumbered _ (Nat.le_refl _)).2] at hcopy
      cases hcopy
    · by_cases heq : name = other
      · subst heq
        exact .inl ((keepsDefinition_effect hon db).hasCopy hhas)
      · refine .inl ?_
        rw [OrderedMap.contains, (within_effect hon db).elsewhere name heq]
        exact hhas
    · exact .inr ⟨over_of_ends hends hactive, copies_of_ends hends hactive⟩
  · refine .inr ⟨hover.effect hnumbered call, ?_⟩
    rcases workspace_cases call db id with hworkspace | ⟨level, -, heq⟩ | ⟨other, hon⟩ | ⟨-, hactive⟩
    · rw [hworkspace, hempty]
    · exact absurd heq (Nat.ne_of_lt (hover.lt hnumbered))
    · rw [(within_effect hon db).ended hover.not_active, hempty]
    · exact absurd hactive hover.not_active

/-- **As long as a transaction has its copy of a table, the copy keeps its definition.** -/
theorem schema_of_copies (more : List Call) {copy copy' : Copy}
    (hcopy : ((run calls).workspace id).copies.get? name = some copy)
    (hcopy' : ((run (calls ++ more)).workspace id).copies.get? name = some copy') :
    copy'.table.schema = copy.table.schema := by
  have hkept : HasOrOver copy.table.schema id name ((run calls).after more) := keeps_run
    (fun db hnumbered h call _ => h.effect hnumbered call) (run calls) (numbered_run calls) (.inl ⟨copy, hcopy, rfl⟩)
  rw [← run_append] at hkept
  rcases hkept with ⟨c, hc, hschema⟩ | ⟨-, hempty⟩
  · rw [hcopy'] at hc
    cases hc
    exact hschema
  · rw [hempty] at hcopy'
    cases hcopy'

/-! ## Copies that are older than a drop -/

/-- Some calls drop a table of which a transaction has a copy, with the definition that the copy had. -/
def Stale (id : Nat) (name : String) (schema : TableSchema) (calls : List Call) : Prop :=
  ∃ before, before ++ [.dropTable name] <+: calls ∧ (run before).tableExists name = true ∧
    ∃ copy, ((run before).workspace id).copies.get? name = some copy ∧ copy.table.schema = schema

theorem Stale.append (h : Stale id name schema calls) (more : List Call) : Stale id name schema (calls ++ more) := by
  obtain ⟨before, hinitial, hstale⟩ := h
  exact ⟨before, hinitial.trans (List.prefix_append _ _), hstale⟩

/-- A commit would put a copy that is older than a drop of the table in the place of a table that was created since. -/
def Revives (id : Nat) (name : String) (calls : List Call) : Prop :=
  (∃ schema, Stale id name schema calls) ∧ (run calls).Marked id name ∧ (run calls).tableExists name = true

/-- **The tables of a name have the definition of its last creation**: the committed one, and the copies that are not older
than a drop. -/
structure Current (name : String) (calls : List Call) : Prop where
  committed : ∀ t, (run calls).tables.get? name = some t → lastCreation? name calls {} = some t.schema
  copied : ∀ id copy, ((run calls).workspace id).copies.get? name = some copy →
    (∃ schema, Stale id name schema calls) ∨
      ((run calls).tableExists name = true ∧ lastCreation? name calls {} = some copy.table.schema)

/-- What a transaction works on has the definition of the last creation as well. -/
theorem Current.copy? (h : Current name calls) {copy : Copy} (hcopy : (run calls).copy? id name = some copy) :
    (∃ schema, Stale id name schema calls) ∨
      ((run calls).tableExists name = true ∧ lastCreation? name calls {} = some copy.table.schema) := by
  rcases Option.or_eq_some_iff.1 hcopy with hcopied | ⟨-, hcommitted⟩
  · exact h.copied id copy hcopied
  · obtain ⟨t, ht, rfl⟩ := Option.map_eq_some_iff.1 hcommitted
    refine .inr ⟨?_, h.committed t ht⟩
    rw [tableExists, OrderedMap.contains, ht]
    rfl

/-- **What is committed keeps its definition**, or gets a new one by a creation. -/
theorem Current.committed_append (h : Current name calls)
    (hcommit : ∀ txn, call = .commit txn → ¬Revives txn.id name calls) {t : Table}
    (ht : (run (calls ++ [call])).tables.get? name = some t) :
    lastCreation? name (calls ++ [call]) {} = some t.schema := by
  have hbecomes := becomes_run name calls call
  generalize (run (calls ++ [call])).tables.get? name = after at hbecomes ht
  cases hbecomes with
  | @created _ schema hcreates _ =>
    cases ht
    have hcreates : call.creates? name (Database.after {} calls) = some schema := hcreates
    rw [lastCreation?_append_singleton, hcreates, Option.some_or]
    rfl
  | dropped => cases ht
  | truncated hold =>
    cases ht
    rw [lastCreation?_eq_of_creates? rfl, h.committed _ hold]
    rfl
  | @published txn copy hcopy hwritten hexists =>
    cases ht
    rw [lastCreation?_eq_of_creates? rfl]
    rcases h.copied _ _ hcopy with hstale | ⟨-, hcurrent⟩
    · exact absurd ⟨hstale, ⟨copy, hcopy, hwritten⟩, hexists⟩ (hcommit txn rfl)
    · exact hcurrent
  | kept hcreates => rw [lastCreation?_eq_of_creates? hcreates, h.committed t ht]

/-- **A copy keeps its definition**, and by a drop of the table it becomes stale. -/
theorem Current.copied_append (h : Current name calls) {copy : Copy}
    (hcopy : ((run (calls ++ [call])).workspace id).copies.get? name = some copy) :
    (∃ schema, Stale id name schema (calls ++ [call])) ∨ ((run (calls ++ [call])).tableExists name = true ∧
      lastCreation? name (calls ++ [call]) {} = some copy.table.schema) := by
  have hrun : run (calls ++ [call]) = call.effect (run calls) := run_append calls [call]
  have hbecomes := becomes_run name calls call
  obtain ⟨before, hbefore, hschema⟩ := exists_before_copy (hrun ▸ hcopy)
  rcases h.copy? hbefore with ⟨schema, hstale⟩ | ⟨hexists, hcurrent⟩
  · exact .inl ⟨schema, hstale.append _⟩
  rw [← hschema] at hcurrent
  generalize hafter : (run (calls ++ [call])).tables.get? name = after at hbecomes
  have hthere : ∀ {t : Table}, after = some t → (run (calls ++ [call])).tableExists name = true := by
    rintro t rfl
    rw [tableExists, OrderedMap.contains, hafter]
    rfl
  cases hbecomes with
  | created _ hnone =>
    rw [tableExists_eq_false.2 hnone] at hexists
    cases hexists
  | dropped =>
    -- the copy that the transaction has is now older than a drop
    have howner : (Call.dropTable name).owner? = none := rfl
    obtain ⟨hsame, -⟩ := (effect_of_no_owner howner (run calls)).resolve_left (by rintro ⟨_, hc⟩; cases hc)
    have hworkspace : (run (calls ++ [.dropTable name])).workspace id = (run calls).workspace id := by
      rw [hrun, workspace, hsame]
      rfl
    exact .inl ⟨copy.table.schema, calls, List.prefix_refl _, hexists, copy, hworkspace ▸ hcopy, rfl⟩
  | truncated _ => exact .inr ⟨hthere rfl, (lastCreation?_eq_of_creates? rfl).trans hcurrent⟩
  | published _ _ _ => exact .inr ⟨hthere rfl, (lastCreation?_eq_of_creates? rfl).trans hcurrent⟩
  | kept hcreates =>
    obtain ⟨t, ht⟩ := Option.isSome_iff_exists.1 hexists
    exact .inr ⟨hthere ht, (lastCreation?_eq_of_creates? hcreates).trans hcurrent⟩

/-- **As long as no commit brings a dropped table back**, each table has the definition of the last creation of its name. -/
theorem current_run (hcommits : ∀ before txn, before ++ [.commit txn] <+: calls → ¬Revives txn.id name before) :
    Current name calls := by
  -- by induction on the calls from behind, since each one acts on what those before it have led to
  induction calls using List.reverseRecOn with
  | nil => exact ⟨fun _ ht => (by cases ht), fun _ _ hcopy => (by cases hcopy)⟩
  | append_singleton calls call ih =>
    have hcurrent : Current name calls := ih fun before txn hinitial =>
      hcommits before txn (hinitial.trans (List.prefix_append _ _))
    refine ⟨fun t ht => hcurrent.committed_append ?_ ht, fun id copy hcopy => hcurrent.copied_append hcopy⟩
    rintro txn rfl
    exact hcommits calls txn (List.prefix_refl _)

theorem publishes_of_commit {txn : Transaction} {db' : Database} (h : engine.commit txn db = (.ok (), db')) :
    (db.workspace txn.id).state = .active ∧ db'.tables = publish db.tables (db.workspace txn.id).copies := by
  have hcommit : finish txn.id true db = (.ok (), db') := h
  by_cases hactive : (db.workspace txn.id).state = .active
  · rw [finish_of_active hactive] at hcommit
    cases hcommit
    exact ⟨hactive, rfl⟩
  · rw [finish_of_not_active hactive] at hcommit
    cases hcommit

/-- **A commit of a copy that is older than a drop** leaves its table alone unless it brings the dropped table back. -/
theorem get?_commit_stale {txn : Transaction} {dropped : TableSchema} (hstale : Stale txn.id name dropped calls)
    (hcommit : engine.commit txn (run calls) = (.ok (), db)) :
    (¬Revives txn.id name calls → db.tables.get? name = (run calls).tables.get? name) ∧
      (Revives txn.id name calls →
        ∃ t, (run calls).Has txn.id name t ∧ t.schema = dropped ∧ db.tables.get? name = some t) := by
  obtain ⟨hactive, htables⟩ := publishes_of_commit hcommit
  rw [htables, get?_publish _ (ascending_copies calls txn.id)]
  constructor
  · intro hnot
    cases hcopy : ((run calls).workspace txn.id).copies.get? name with
    | none => rfl
    | some copy =>
      refine if_neg fun hpublished => hnot ⟨⟨dropped, hstale⟩, ?_⟩
      obtain ⟨hwritten, hexists⟩ := Bool.and_eq_true_iff.1 hpublished
      exact ⟨⟨copy, hcopy, hwritten⟩, hexists⟩
  · rintro ⟨-, ⟨copy, hcopy, hwritten⟩, hexists⟩
    obtain ⟨before, ⟨more, rfl⟩, -, old, hold, rfl⟩ := hstale
    -- the transaction has had its copy since before the drop
    have hschema : copy.table.schema = old.table.schema := by
      refine schema_of_copies (.dropTable name :: more) hold ?_
      rw [List.append_cons]
      exact hcopy
    refine ⟨copy.table, ⟨hactive, by rw [hcopy]; rfl⟩, hschema, ?_⟩
    rw [hcopy]
    exact if_pos (Bool.and_eq_true_iff.2 ⟨hwritten, hexists⟩)

/-- **A table that was dropped stays dropped until it is created again, and each table is stored under the definition of the
last creation of its name**, as long as no commit has brought a dropped table back.  A commit of a copy that is older than
a drop changes nothing of its table, unless the name has been taken again and a write to the copy was begun; then it puts
the copy, with the definition that was dropped, in the place of the new table. -/
theorem definitions_last_created (calls : List Call) (name : String) :
    (∀ more, (run calls).tableExists name = false → lastCreation? name more (run calls) = none →
        (run (calls ++ more)).tableExists name = false) ∧
      ((∀ before txn, before ++ [.commit txn] <+: calls → ¬Revives txn.id name before) →
        ∀ t, (run calls).tables.get? name = some t → lastCreation? name calls {} = some t.schema) ∧
      ∀ txn db, engine.commit txn (run calls) = (.ok (), db) → ∀ dropped, Stale txn.id name dropped calls →
        (¬Revives txn.id name calls → db.tables.get? name = (run calls).tables.get? name) ∧
          (Revives txn.id name calls →
            ∃ t, (run calls).Has txn.id name t ∧ t.schema = dropped ∧ db.tables.get? name = some t) :=
  ⟨fun more => absent_run more, fun hcommits => (current_run hcommits).committed,
    fun _ _ hcommit _ hstale => get?_commit_stale hstale hcommit⟩

/-! ## A table of people that is created again -/

/-- People by number alone. -/
def peopleAgain : Declaration where
  name := "people"
  columns := [⟨"id", .int, 8, [.notNull]⟩]
  keys := [⟨"key", "id", true, true⟩]

def numbered : TableSchema where
  name := "people"
  columns := [⟨"id", .int, 8, [.notNull], 0⟩]
  primary := ⟨"key", [⟨"id", .int, 8, [.notNull], 0⟩], true, true⟩
  secondary := []

/-- The table is dropped and created again while a transaction that has made a call is active. -/
def recreatedCalls (call : Call) : List Call :=
  peopleCalls ++ [call, .dropTable "people", .createTable peopleAgain]

/-- What the transaction has done is to look at the old table. -/
def lookedAtCalls : List Call := recreatedCalls (.load ⟨1, .readCommitted⟩ people (person 1 ""))

theorem stale_lookedAtCalls : Stale 1 "people" people lookedAtCalls := by
  refine ⟨peopleCalls ++ [.load ⟨1, .readCommitted⟩ people (person 1 "")], ⟨[.createTable peopleAgain], rfl⟩, by cbv,
    ⟨.new people, false⟩, by cbv, rfl⟩

theorem not_marked_lookedAtCalls : ¬(run lookedAtCalls).Marked 1 "people" := by
  rintro ⟨copy, hcopy, hwritten⟩
  have hread : (((run lookedAtCalls).workspace 1).copies.get? "people").map (·.written) = some false := by cbv
  rw [hcopy] at hread
  exact absurd hwritten (Bool.eq_false_iff.1 (Option.some.inj hread))

/-- It commits, and the new table stays, with its own definition. -/
theorem definitions_last_created_reader :
    ((run lookedAtCalls).tables.get? "people").map (·.schema) = some numbered ∧
      (engine.commit ⟨1, .readCommitted⟩ (run lookedAtCalls)).2.tables.get? "people" =
        (run lookedAtCalls).tables.get? "people" := by
  obtain ⟨-, hdefinition, hcommits⟩ := definitions_last_created lookedAtCalls "people"
  constructor
  · obtain ⟨t, ht⟩ := Option.isSome_iff_exists.1 (show ((run lookedAtCalls).tables.get? "people").isSome by cbv)
    have hlast := hdefinition (fun before txn hinitial => ?_) t ht
    · rw [ht]
      exact hlast.symm.trans (by cbv)
    · have hmem : Call.commit txn ∈ lookedAtCalls := hinitial.subset (List.mem_append_right _ List.mem_cons_self)
      unfold lookedAtCalls recreatedCalls peopleCalls at hmem
      simp at hmem
  · have hcommit : engine.commit ⟨1, .readCommitted⟩ (run lookedAtCalls) =
        (.ok (), (engine.commit ⟨1, .readCommitted⟩ (run lookedAtCalls)).2) := Prod.ext (by cbv) rfl
    exact (hcommits _ _ hcommit people stale_lookedAtCalls).1 fun hrevives => not_marked_lookedAtCalls hrevives.2.1

/-- What the transaction has done is to add a row to the old table. -/
def addedToCalls : List Call := recreatedCalls (.insert ⟨1, .readCommitted⟩ people (person 1 "ada"))

/-- It commits, and the old table is back in the place of the new one. -/
theorem stale_commit_revives :
    lastCreation? "people" (addedToCalls ++ [.commit ⟨1, .readCommitted⟩]) {} = some numbered ∧
      rowCount (run addedToCalls) "people" = .ok 0 ∧
      (engine.commit ⟨1, .readCommitted⟩ (run addedToCalls)).1 = .ok () ∧
      rowCount (run (addedToCalls ++ [.commit ⟨1, .readCommitted⟩])) "people" = .ok 1 ∧
      ((run (addedToCalls ++ [.commit ⟨1, .readCommitted⟩])).tables.get? "people").map (·.schema) = some people :=
  ⟨by cbv, by cbv, by cbv, by cbv, by cbv⟩

end Database
end Memory
end RowStore

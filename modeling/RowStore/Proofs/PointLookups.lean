import RowStore.Proofs.KeyRows
import RowStore.Proofs.ScanRuns

/-!
# A lookup by key against a scan of the whole table

The calls for single rows look at one row only: the first that does not begin before the leading cells of the key that are
not null.  They hit if that row agrees with the key, and all of them hit or miss together (`Finds`); a hit exchanges rows
as the finite map of the table's contents does.  Where no null in the
key stands before a cell that is not null, that is the row which a scan of the whole table that compares every row would
pick (`Database.lookups_agree_with_scan`).  Otherwise it need not be: a row that begins with the same nulls may stand in
front (`Database.lookup_misses_pair`).
-/
namespace RowStore

open Memory (Database Transaction Table engine project)

/-- All rows in the order of their primary keys. -/
def Plan.everything (schema : TableSchema) : Plan where
  target := ⟨schema, none⟩

namespace Memory

open Attempt

variable {schema : TableSchema} {txn : Transaction} {db : Database} {t : Table} {key row : Row} {pk : Key}

/-! ## The rows of a whole scan -/

theorem Table.Populated.ordered_values (ht : t.Populated schema) :
    ordered schema.primary.columns t.rows.values = t.rows.values := by
  have hentries : (t.view none).entries = _ := Table.entries_view ht.sound.consistent fun i hi => by cases hi
  rw [ht.sound.schema] at hentries
  have hvalues := congrArg (List.map Prod.snd) hentries
  rw [List.map_map] at hvalues
  exact ((List.map_id _).symm.trans hvalues.symm)

theorem handedOut_everything (ht : t.Populated schema) :
    (Plan.everything schema).handedOut none [] t.rows.values = t.rows.values.map schema.rowOf := by
  have hordered : ordered (entryColumns schema none) t.rows.values = t.rows.values := ht.ordered_values
  have hmet : met (entryColumns schema none) [] .greaterOrEqual .asc t.rows.values = t.rows.values := by
    unfold met
    rw [hordered]
    cases hvalues : t.rows.values with
    | nil => rfl
    | cons first rest =>
      have hstart : start? (entryColumns schema none) [] .greaterOrEqual (first :: rest) = some first := rfl
      rw [hstart]
      show List.dropWhile (fun cells => cells != first) (first :: rest) = _
      rw [List.dropWhile_cons_of_neg (by simp)]
  have hkeep : ∀ rows : List (List Cell), (Plan.everything schema).keep rows = rows := by
    intro rows
    induction rows with
    | nil => rfl
    | cons cells rows ih =>
      rw [Plan.keep_cons, ih]
      rfl
  show ((Plan.everything schema).keep (met (entryColumns schema none) [] .greaterOrEqual .asc t.rows.values)).map
    schema.rowOf = _
  rw [hmet, hkeep]

/-! ## What a key finds -/

/-- The calls for single rows take a key for that of a row, or of none, in a table of these contents. -/
structure Finds (txn : Transaction) (schema : TableSchema) (contents : Contents) (key : Row) (found : Option Row)
    (db : Database) : Prop where
  load : (ByKey.load engine txn schema key db).1 = .ok found
  update : ∀ hit, (ByKey.update engine txn schema key db).1 = .ok hit → hit = found.isSome
  /-- To update no row is no failure. -/
  update_none : found = none → (ByKey.update engine txn schema key db).1 = .ok false
  /-- A row that can be encoded is exchanged for the one that is found, unless it collides with another one. -/
  update_some : ∀ cells, schema.encodeRow key = .ok cells → found.isSome = true →
    (ByKey.update engine txn schema key db).1 = (contents.exchange schema cells).1.map fun _ => true
  insertOrUpdate : ∀ hit, (ByKey.insertOrUpdate engine txn schema key db).1 = .ok hit → hit = found.isSome
  /-- A row that can be encoded is exchanged for the one that is found, or added if none is, unless it collides with
  another one. -/
  insertOrUpdate_eq : ∀ cells, schema.encodeRow key = .ok cells →
    (ByKey.insertOrUpdate engine txn schema key db).1 = if found.isSome = true
      then (contents.exchange schema cells).1.map fun _ => true
      else (contents.add schema cells).1.map fun _ => false
  delete : (ByKey.delete engine txn schema key db).1 = .ok found.isSome

theorem eq_of_map_ok {α : Type} {hit b : Bool} {r : Except Error α} (h : r.map (fun _ => b) = .ok hit) : hit = b := by
  obtain ⟨_, -, rfl⟩ := map_ok_iff.1 h
  rfl

section
variable {found : Option (List Cell)} {hit : Bool} (hfound : t.found schema key = .ok found)
include hfound

theorem Table.Work.update_hit (h : (Table.Work.update schema key t).1 = .ok hit) : hit = found.isSome := by
  rw [Table.Work.update_apply, hfound] at h
  cases found with
  | none =>
    cases h
    rfl
  | some old =>
    cases hrow : schema.encodeRow key with
    | error e =>
      rw [hrow] at h
      cases h
    | ok cells =>
      simp only [hrow, map_apply] at h
      exact eq_of_map_ok h

theorem Table.Work.insertOrUpdate_hit (h : (Table.Work.insertOrUpdate schema key t).1 = .ok hit) :
    hit = found.isSome := by
  rw [Table.Work.insertOrUpdate_apply, hfound] at h
  cases hrow : schema.encodeRow key with
  | error e =>
    rw [hrow] at h
    cases h
  | ok cells =>
    cases found with
    | none =>
      simp only [hrow, map_apply] at h
      exact eq_of_map_ok h
    | some old =>
      simp only [hrow, map_apply] at h
      exact eq_of_map_ok h

theorem Table.Work.delete_hit (ht : t.Populated schema) : (Table.Work.delete schema key t).1 = .ok found.isSome := by
  rw [Table.Work.delete_apply, hfound]
  cases found with
  | none => rfl
  | some old =>
    obtain ⟨hstored, -⟩ := ht.mem_of_found hfound
    dsimp only
    rw [map_apply, Table.remove_apply, OrderedMap.get?_of_mem ht.ascending hstored Std.ReflCmp.compare_self]
    rfl

omit hfound in
/-- A row that can be encoded is exchanged for the one that is found. -/
theorem Table.Populated.replace_of_found (hschema : schema.WellFormed) (hbasic : schema.IsBasic) (ht : t.Populated schema)
    {cells old : List Cell} (hrow : schema.encodeRow key = .ok cells) (hfound : t.found schema key = .ok (some old)) :
    (((fun _ => true) <$> Table.replace (project schema.primary.columns old) cells) t).1 =
      (t.contents.exchange schema cells).1.map fun _ => true := by
  obtain ⟨hstored, hagree⟩ := ht.mem_of_found hfound
  have hkey : project schema.primary.columns cells = project schema.primary.columns old :=
    (agreeOn_iff hschema (encodes_of_encodeRow hbasic hrow) (ht.stores _ hstored) hschema.primary).1 hagree
  have hlookup : t.contents.lookup (project schema.primary.columns cells) = some old := by
    rw [hkey, Table.lookup_contents ht.ascending]
    exact hstored
  obtain ⟨t', hreplace, -⟩ := replace_found hschema hbasic hrow ht hlookup
  rw [hreplace]

theorem Table.Work.update_some (hschema : schema.WellFormed) (hbasic : schema.IsBasic) (ht : t.Populated schema)
    {cells : List Cell} (hrow : schema.encodeRow key = .ok cells) (hsome : found.isSome = true) :
    (Table.Work.update schema key t).1 = (t.contents.exchange schema cells).1.map fun _ => true := by
  obtain ⟨old, rfl⟩ := Option.isSome_iff_exists.1 hsome
  rw [Table.Work.update_apply, hfound, hrow]
  exact ht.replace_of_found hschema hbasic hrow hfound

theorem Table.Work.insertOrUpdate_eq (hschema : schema.WellFormed) (hbasic : schema.IsBasic) (ht : t.Populated schema)
    {cells : List Cell} (hrow : schema.encodeRow key = .ok cells) :
    (Table.Work.insertOrUpdate schema key t).1 = if found.isSome = true
      then (t.contents.exchange schema cells).1.map fun _ => true
      else (t.contents.add schema cells).1.map fun _ => false := by
  rw [Table.Work.insertOrUpdate_apply, hrow, hfound]
  cases found with
  | none =>
    obtain ⟨t', hinsert, -⟩ := ht.insert_refines hschema (stores_of_encodeRow hbasic hrow)
    dsimp only
    rw [map_apply, hinsert]
    rfl
  | some old => exact ht.replace_of_found hschema hbasic hrow hfound

/-- **All calls take a key for that of the row which is found.** -/
theorem finds_of_found (hschema : schema.WellFormed) (hbasic : schema.IsBasic) (ht : t.Populated schema)
    (h : db.Sees txn.id schema.name t) : Finds txn schema t.contents key (found.map schema.rowOf) db := by
  have hload := (does_load hschema hbasic ht h key).result
  have hupdate := (does_update hschema hbasic ht h key).result
  have hinsertOrUpdate := (does_insertOrUpdate hschema hbasic ht h key).result
  have hdelete := (does_delete hschema hbasic ht h key).result
  rw [Table.Work.load_apply, hfound] at hload
  rw [Table.Work.delete_hit hfound ht] at hdelete
  constructor
  case load => exact hload
  case update_none =>
    intro hnone
    rw [hupdate, Table.Work.update_apply, hfound, Option.map_eq_none_iff.1 hnone]
  all_goals rw [Option.isSome_map]
  case update => exact fun hit hhit => Table.Work.update_hit hfound (hupdate ▸ hhit)
  case update_some =>
    exact fun cells hrow hsome => hupdate.trans (Table.Work.update_some hfound hschema hbasic ht hrow hsome)
  case insertOrUpdate => exact fun hit hhit => Table.Work.insertOrUpdate_hit hfound (hinsertOrUpdate ▸ hhit)
  case insertOrUpdate_eq =>
    exact fun cells hrow => hinsertOrUpdate.trans (Table.Work.insertOrUpdate_eq hfound hschema hbasic ht hrow)
  case delete => exact hdelete

end

/-! ## What is found, among the rows of the whole scan -/

theorem Table.found_congr {key' : Row} (t : Table)
    (h : ∀ c ∈ schema.primary.columns, key.value c.name = key'.value c.name) :
    t.found schema key = t.found schema key' := by
  unfold Table.found
  rw [encodeLeading_congr h]
  simp only [agreeOn_congr _ h]

/-- The first row that does not begin before the leading cells, if it agrees. -/
def firstAgreeing (schema : TableSchema) (key : Row) (leading : Key) (rows : List (List Cell)) : Option (List Cell) :=
  (start? schema.primary.columns leading .greaterOrEqual rows).filter fun cells =>
    Row.agreeOn schema.primary.columns key (schema.rowOf cells)

theorem found_eq_firstAgreeing (ht : t.Populated schema) {leading : Key}
    (hleading : encodeLeading schema.primary.columns key = .ok leading) :
    t.found schema key = .ok (firstAgreeing schema key leading t.rows.values) := by
  have hshort : leading.length ≤ (entryColumns t.schema none).length := by
    rw [ht.sound.schema]
    exact length_encodeLeading_le hleading
  have hseek : (t.view none).seek leading .greaterOrEqual = _ :=
    Table.seek_eq_start? ht.sound.consistent (fun i hi => by cases hi) hshort .greaterOrEqual
  rw [ht.sound.schema] at hseek
  have hseek : t.rows.seek leading .greaterOrEqual =
      (start? schema.primary.columns leading .greaterOrEqual (ordered schema.primary.columns t.rows.values)).map
        (project schema.primary.columns) := hseek
  rw [ht.ordered_values] at hseek
  unfold Table.found firstAgreeing
  rw [hleading]
  refine congrArg (fun first => Except.ok (Option.filter _ first)) ?_
  rw [hseek]
  cases hstart : start? schema.primary.columns leading .greaterOrEqual t.rows.values with
  | none => rfl
  | some cells =>
    obtain ⟨r, hr, rfl⟩ := List.mem_map.1 (Table.start?_mem hstart)
    rw [Option.map_some, Option.bind_some]
    exact OrderedMap.get?_of_mem ht.ascending hr (by rw [ht.keyed hr]; exact Std.ReflCmp.compare_self)

/-- **With nulls last, what is found is the row that agrees**, and there is at most one. -/
theorem firstAgreeing_eq_some_iff (hschema : schema.WellFormed) (hbasic : schema.IsBasic) (ht : t.Populated schema)
    (hkey : encodeColumns schema.primary.columns key = .ok pk) {leading : Key}
    (hleading : encodeLeading schema.primary.columns key = .ok leading) (hlast : NullsLast schema.primary.columns key)
    {r : Row} : (firstAgreeing schema key leading t.rows.values).map schema.rowOf = some r ↔
      r ∈ t.rows.values.map schema.rowOf ∧ Row.agreeOn schema.primary.columns key r = true := by
  have hfirst := found_eq_firstAgreeing ht hleading
  constructor
  · intro h
    obtain ⟨stored, hstored, rfl⟩ := Option.map_eq_some_iff.1 h
    rw [hstored] at hfirst
    obtain ⟨hmem, hagree⟩ := ht.mem_of_found hfirst
    exact ⟨List.mem_map_of_mem (List.mem_map_of_mem hmem), hagree⟩
  · rintro ⟨hr, hagree⟩
    obtain ⟨_, hcells, rfl⟩ := List.mem_map.1 hr
    obtain ⟨x, hx, rfl⟩ := List.mem_map.1 hcells
    -- only the columns of the key matter, so the row may be taken to have no others
    obtain ⟨cells, hrow, -⟩ := encodeRow_restrict hschema hkey
    have hsame : ∀ c ∈ schema.primary.columns,
        (key.restrict schema.primary.columns).value c.name = key.value c.name :=
      fun c hc => key.value_restrict_of_mem hc
    have hlast' : NullsLast schema.primary.columns (key.restrict schema.primary.columns) :=
      (hlast.and (List.pairwise_of_forall_mem_list fun c hc d hd => And.intro hc hd)).imp fun {c d} h => by
        rw [hsame c h.2.1, hsame d h.2.2]
        exact h.1
    rw [← agreeOn_congr _ hsame, agreeOn_iff hschema (encodes_of_encodeRow hbasic hrow) (ht.stores x hx) hschema.primary,
      ← ht.keyed hx] at hagree
    have hfound := Table.found_eq_get? hschema hbasic hrow ht fun _ _ => hlast'
    rw [Table.found_congr t hsame, hfirst, hagree,
      OrderedMap.get?_of_mem ht.ascending hx Std.ReflCmp.compare_self] at hfound
    rw [Except.ok.inj hfound]
    rfl

/-- **A row that has been added is loaded by itself**, with nulls last in its key. -/
theorem load_inserted (hschema : schema.WellFormed) (hbasic : schema.IsBasic) (ht : t.Populated schema)
    {db db' : Database} (h : db.Sees txn.id schema.name t)
    (hinsert : ByKey.insert engine txn schema row db = (.ok (), db')) (hlast : NullsLast schema.primary.columns row) :
    ∃ cells, schema.encodeRow row = .ok cells ∧
      (ByKey.load engine txn schema row db').1 = .ok (some (schema.rowOf cells)) := by
  have hdoes := does_insert h row
  unfold Does at hdoes
  rw [Table.Work.insert_apply] at hdoes
  obtain ⟨hresult, hhas⟩ := hdoes
  rw [hinsert] at hresult hhas
  cases hrow : schema.encodeRow row with
  | error e =>
    rw [hrow] at hresult
    cases hresult
  | ok cells =>
    rw [hrow] at hresult hhas
    dsimp only at hresult hhas
    rw [Table.insert_apply] at hresult hhas
    cases hnew : t.rejection? cells with
    | some status =>
      rw [hnew] at hresult
      cases hresult
    | none =>
      rw [hnew] at hhas
      have ht' := ht.withRow hschema (stores_of_encodeRow hbasic hrow) hnew
      have hget : (t.withRow cells).rows.get? (project schema.primary.columns cells) = some cells := by
        rw [← ht.sound.schema]
        exact OrderedMap.get?_insert_self
      have hfound := Table.found_eq_get? hschema hbasic hrow ht' fun _ _ => hlast
      rw [hget] at hfound
      exact ⟨cells, rfl, (finds_of_found hfound hschema hbasic ht' hhas.sees).load⟩

theorem encodeLeading_empty (columns : List Column) : encodeLeading columns .empty = .ok [] := by
  cases columns <;> rfl

namespace Database

/-- **Lookups by key against the scan of the whole table.**  The calls for single rows take a key for that of the first row
that does not begin before the key's leading cells, if this row agrees with it.  With nulls last in the key, that is the
row of the scan that agrees; and a row that has been added, with nulls last in its own key, is then loaded by it. -/
theorem lookups_agree_with_scan {d : Declaration} (hbuild : d.build = .ok schema) (hbasic : schema.IsBasic)
    {calls : List Call} (hcalls : ∀ call ∈ calls, call.Respects schema) (ht : (run calls).Sees txn.id schema.name t) :
    Scan.HandsOut txn (.everything schema) (t.rows.values.map schema.rowOf) (run calls) t ∧
      (∀ key pk, encodeColumns schema.primary.columns key = .ok pk →
        ∃ leading, encodeLeading schema.primary.columns key = .ok leading ∧
          Finds txn schema t.contents key ((firstAgreeing schema key leading t.rows.values).map schema.rowOf) (run calls) ∧
          (NullsLast schema.primary.columns key →
            ∀ r, (firstAgreeing schema key leading t.rows.values).map schema.rowOf = some r ↔
              r ∈ t.rows.values.map schema.rowOf ∧ Row.agreeOn schema.primary.columns key r = true)) ∧
      ∀ row db, ByKey.insert engine txn schema row (run calls) = (.ok (), db) → NullsLast schema.primary.columns row →
        ∃ cells, schema.encodeRow row = .ok cells ∧
          (ByKey.load engine txn schema row db).1 = .ok (some (schema.rowOf cells)) := by
  have hschema := TableSchema.wellFormed_of_build hbuild
  have hpopulated := populated_of_sees hschema hbasic hcalls ht
  refine ⟨?_, fun key pk hkey => ?_, fun row db hinsert hlast => ?_⟩
  · rw [← handedOut_everything hpopulated]
    exact handsOut ⟨hschema, hbasic, fun _ hindex => (by cases hindex), hpopulated⟩ rfl
      (encodeLeading_empty schema.primary.columns) ht
  · obtain ⟨cells, hrow, rfl⟩ := encodeRow_restrict hschema hkey
    have hleading := encodeLeading_eq hschema hrow hschema.primary
    rw [encodeLeading_congr fun c hc => key.value_restrict_of_mem hc] at hleading
    exact ⟨_, hleading, finds_of_found (found_eq_firstAgreeing hpopulated hleading) hschema hbasic hpopulated ht,
      fun hlast r => firstAgreeing_eq_some_iff hschema hbasic hpopulated hkey hleading hlast⟩
  · exact load_inserted hschema hbasic hpopulated ht hinsert hlast

/-- The second of three people is loaded by its number, moves to an address that is free but not to that of the first one,
and a fourth one is loaded by itself after it has been added. -/
theorem lookups_agree_crowd :
    (ByKey.load engine ⟨1, .readCommitted⟩ people ⟨[("id", .int 2)]⟩ (run crowdCalls)).1 = .ok (some (person 2 "bob")) ∧
      (ByKey.update engine ⟨1, .readCommitted⟩ people (person 2 "joe") (run crowdCalls)).1 = .ok true ∧
      (ByKey.insertOrUpdate engine ⟨1, .readCommitted⟩ people (person 2 "eve") (run crowdCalls)).1 =
        .error (.engine .duplicateKey) ∧
      (ByKey.load engine ⟨1, .readCommitted⟩ people (person 4 "joe")
        (ByKey.insert engine ⟨1, .readCommitted⟩ people (person 4 "joe") (run crowdCalls)).2).1 =
          .ok (some (person 4 "joe")) := by
  have hsees : (run crowdCalls).Sees (Transaction.mk 1 .readCommitted).id people.name crowd := sees_crowd
  obtain ⟨-, hkeys, hadded⟩ := lookups_agree_with_scan build_people (by decide) respects_crowdCalls hsees
  have hmember : person 2 "bob" ∈ crowd.rows.values.map people.rowOf := by
    have hrows : crowd.rows.values.map people.rowOf = [person 1 "eve", person 2 "bob", person 3 "ada"] := by cbv
    rw [hrows]
    exact List.mem_cons_of_mem _ List.mem_cons_self
  have hsecond : ∀ {key : Row}, encodeColumns people.primary.columns key = .ok [.int 2] →
      NullsLast people.primary.columns key → Row.agreeOn people.primary.columns key (person 2 "bob") = true →
      Finds ⟨1, .readCommitted⟩ people crowd.contents key (some (person 2 "bob")) (run crowdCalls) := by
    intro key hkey hlast hagree
    obtain ⟨leading, -, hfinds, hscan⟩ := hkeys key [.int 2] hkey
    rw [(hscan hlast (person 2 "bob")).2 ⟨hmember, hagree⟩] at hfinds
    exact hfinds
  obtain ⟨cells, hcells, hload⟩ := hadded (person 4 "joe")
    (ByKey.insert engine ⟨1, .readCommitted⟩ people (person 4 "joe") (run crowdCalls)).2
    (Prod.ext (by cbv) rfl) (by decide)
  refine ⟨(hsecond (by cbv) (by decide) (by cbv)).load, ?_, ?_, hload.trans ?_⟩
  · refine ((hsecond (by cbv) (by decide) (by cbv)).update_some [.int 2, .text "joe"] (by cbv) rfl).trans ?_
    cbv
  · refine ((hsecond (by cbv) (by decide) (by cbv)).insertOrUpdate_eq [.int 2, .text "eve"] (by cbv)).trans ?_
    cbv
  · have hrow : people.encodeRow (person 4 "joe") = .ok [.int 4, .text "joe"] := by cbv
    rw [hrow] at hcells
    cases hcells
    cbv

/-! ## A key that begins with a null -/

/-- Pairs of numbers, each of which may be null, with both in the key. -/
def pairs : TableSchema where
  name := "pairs"
  columns := [⟨"a", .int, 8, [], 0⟩, ⟨"b", .int, 8, [], 1⟩]
  primary := ⟨"key", [⟨"a", .int, 8, [], 0⟩, ⟨"b", .int, 8, [], 1⟩], true, true⟩
  secondary := []

def pairsDeclaration : Declaration where
  name := "pairs"
  columns := [⟨"a", .int, 8, []⟩, ⟨"b", .int, 8, []⟩]
  keys := [⟨"key", "a", true, true⟩, ⟨"key", "b", true, true⟩]

/-- A pair whose first number is null. -/
def halfPair (b : Int64) : Row := ⟨[("a", .null), ("b", .int b)]⟩

/-- Two pairs are added that begin with a null. -/
def pairCalls : List Call :=
  [.createTable pairsDeclaration, .begin .readCommitted, .insert ⟨1, .readCommitted⟩ pairs (halfPair 1),
    .insert ⟨1, .readCommitted⟩ pairs (halfPair 2)]

/-- The second pair is in the table and agrees with its own key, but is not loaded by it. -/
theorem lookup_misses_pair :
    (Scan.fold engine ⟨1, .readCommitted⟩ (.everything pairs) (fun rows row => rows ++ [row]) [] (run pairCalls)).1 =
        .ok [halfPair 1, halfPair 2] ∧
      Row.agreeOn pairs.primary.columns (halfPair 2) (halfPair 2) = true ∧
      (ByKey.load engine ⟨1, .readCommitted⟩ pairs (halfPair 2) (run pairCalls)).1 = .ok none ∧
      (ByKey.delete engine ⟨1, .readCommitted⟩ pairs (halfPair 2) (run pairCalls)).1 = .ok false :=
  ⟨by cbv, by cbv, by cbv, by cbv⟩

end Database

end Memory
end RowStore

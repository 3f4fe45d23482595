import RowStore.Proofs.Requests
import RowStore.Proofs.Runs

/-!
# Tables that only rows of their schema come into

Calls respect a schema (`Call.Respects`) if tables of its name are created with it and only rows of it are written to
them.  In a database that such calls lead to, every table of the name is populated with stored rows
(`Database.populated_of_sees`), and in any transaction that sees the table, requests end as a finite map answers them
(`Database.requests_refine_finiteMap`).
-/
namespace RowStore
namespace Memory

open Attempt

variable {schema : TableSchema}

/-! ## Calls -/

/-- A call creates tables of the schema's name only with the schema, and writes to them only rows of it. -/
def Call.Respects (schema : TableSchema) : Call → Prop
  | createTable d => ∀ other, d.build = .ok other → other.name = schema.name → other = schema
  | insertRow cursor _ cells | updateRow cursor _ cells =>
    cursor.schema.name = schema.name → StoresRow schema.columns cells
  | insert _ other _ | update _ other _ | insertOrUpdate _ other _ => other.name = schema.name → other = schema
  | _ => True

/-- What holds of the tables of all names if calls respect a schema. -/
def Respected (schema : TableSchema) (name : String) (t : Table) : Prop :=
  Kept name t ∧ (name = schema.name → t.Populated schema)

theorem keeps_respected {name : String} {work : Action Table Unit} (hkept : Keeps (Kept name) work)
    (hpopulated : name = schema.name → Keeps (Table.Populated schema) work) : Keeps (Respected schema name) work :=
  fun t h => ⟨hkept t h.1, fun hname => hpopulated hname t (h.2 hname)⟩

theorem keeps_respected_remove (hschema : schema.WellFormed) (name : String) (key : Key) :
    Keeps (Respected schema name) (Table.remove key) :=
  fun t h => ⟨keeps_kept_remove name key t h.1, fun hname => (h.2 hname).remove hschema key⟩

theorem writesKeep_respected (hschema : schema.WellFormed) (hbasic : schema.IsBasic) {other : TableSchema}
    (h : other.name = schema.name → other = schema) (row : Row) : WritesKeep (Respected schema) other row := by
  refine ⟨fun payload hpayload => ?_, fun payload hpayload key => ?_, keeps_respected_remove hschema _⟩
  · refine keeps_respected (keeps_kept_insert _ payload) fun hname => ?_
    cases h hname
    exact fun t ht => ht.insert hschema (stores_of_encodeRow hbasic hpayload)
  · refine keeps_respected (keeps_kept_replace _ key payload) fun hname => ?_
    cases h hname
    exact fun t ht => ht.replace hschema (stores_of_encodeRow hbasic hpayload) key

theorem Call.keepsTables_respected (hschema : schema.WellFormed) (hbasic : schema.IsBasic) {call : Call}
    (h : call.Respects schema) : call.KeepsTables (Respected schema) := by
  cases call with
  | createTable d =>
    intro other hbuild
    refine ⟨kept_new hbuild, fun hname => ?_⟩
    cases h other hbuild hname
    exact Table.Populated.new hschema
  | truncateTable name =>
    refine fun t ht => ⟨Call.keepsTables_kept (.truncateTable name) t ht.1, fun hname => ?_⟩
    rw [(ht.2 hname).sound.schema]
    exact Table.Populated.new hschema
  | insertRow cursor tuple cells =>
    exact keeps_respected (keeps_kept_insert _ cells) fun hname t ht => ht.insert hschema (h hname)
  | updateRow cursor tuple cells =>
    exact fun key => keeps_respected (keeps_kept_replace _ key cells) fun hname t ht =>
      ht.replace hschema (h hname) key
  | deleteRow cursor => exact keeps_respected_remove hschema _
  | delete txn other key => exact keeps_respected_remove hschema _
  | insert txn other row | update txn other row | insertOrUpdate txn other row =>
    exact writesKeep_respected hschema hbasic h row
  | _ => exact True.intro

namespace Database

theorem All.sees {P : String → Table → Prop} {db : Database} (h : db.All P) {id : Nat} {name : String} {t : Table}
    (ht : db.Sees id name t) : P name t := by
  rcases Option.or_eq_some_iff.1 ht.seen with hcopy | ⟨-, htable⟩
  · obtain ⟨copy, hget, rfl⟩ := Option.map_eq_some_iff.1 hcopy
    exact h.copy hget
  · exact h.get? htable

/-- **A table that a transaction sees is populated**, if all calls have respected its schema. -/
theorem populated_of_sees (hschema : schema.WellFormed) (hbasic : schema.IsBasic) {calls : List Call}
    (hcalls : ∀ call ∈ calls, call.Respects schema) {id : Nat} {t : Table}
    (ht : (run calls).Sees id schema.name t) : t.Populated schema :=
  ((all_run fun call hcall => Call.keepsTables_respected hschema hbasic (hcalls call hcall)).sees ht).2 rfl

/-- **Requests in a transaction end as a finite map answers them**, from encoded primary keys to encoded rows: all answers
are the map's, and so are the contents that are seen afterwards. -/
theorem requests_refine_finiteMap {d : Declaration} (hbuild : d.build = .ok schema) (hbasic : schema.IsBasic)
    (hnotNull : ∀ c ∈ schema.primary.columns, c.isNotNull = true) {calls : List Call}
    (hcalls : ∀ call ∈ calls, call.Respects schema) {txn : Transaction} {t : Table}
    (ht : (run calls).Sees txn.id schema.name t) {requests : List Request}
    (hrows : ∀ request ∈ requests, ∃ cells, schema.encodeRow request.row = .ok cells) :
    (Request.runAll (fun request db => request.perform engine txn schema db) requests (run calls)).1 =
        (Request.runAll (Request.reference schema) requests t.contents).1 ∧
      ∃ t' : Table, (Request.runAll (fun request db => request.perform engine txn schema db) requests (run calls)).2.Sees
          txn.id schema.name t' ∧
        t'.contents = (Request.runAll (Request.reference schema) requests t.contents).2 := by
  have hschema := TableSchema.wellFormed_of_build hbuild
  obtain ⟨hreplies, t', hsees, -, hcontents⟩ := runAll_eq ⟨hschema, hbasic, hnotNull⟩ hrows
    (populated_of_sees hschema hbasic hcalls ht) ht
  exact ⟨hreplies, t', hsees, hcontents⟩

/-! ## A table of people -/

/-- People by number, with a unique index on their addresses. -/
def people : TableSchema where
  name := "people"
  columns := [⟨"id", .int, 8, [.notNull], 0⟩, ⟨"mail", .varchar, 20, [], 1⟩]
  primary := ⟨"key", [⟨"id", .int, 8, [.notNull], 0⟩], true, true⟩
  secondary := [⟨"mails", [⟨"mail", .varchar, 20, [], 1⟩], false, true⟩]

/-- What the table is declared as. -/
def peopleDeclaration : Declaration where
  name := "people"
  columns := [⟨"id", .int, 8, [.notNull]⟩, ⟨"mail", .varchar, 20, []⟩]
  keys := [⟨"key", "id", true, true⟩, ⟨"mails", "mail", false, true⟩]

theorem build_people : peopleDeclaration.build = .ok people := by cbv

def person (id : Int64) (mail : String) : Row := ⟨[("id", .int id), ("mail", .text mail)]⟩

/-- The table is created, and a transaction is begun. -/
def peopleCalls : List Call := [.createTable peopleDeclaration, .begin .readCommitted]

theorem respects_peopleCalls : ∀ call ∈ peopleCalls, call.Respects people := by
  intro call hcall
  rcases List.mem_cons.1 hcall with rfl | hcall
  · intro other hbuild _
    rw [build_people] at hbuild
    cases hbuild
    rfl
  · rw [List.mem_singleton.1 hcall]
    exact True.intro

/-- To add people respects their table. -/
theorem respects_inserts {calls : List Call} (h : ∀ call ∈ calls, call.Respects people) (rows : List Row) :
    ∀ call ∈ calls ++ rows.map (.insert ⟨1, .readCommitted⟩ people ·), call.Respects people := by
  intro call hcall
  rcases List.mem_append.1 hcall with hcall | hcall
  · exact h call hcall
  · obtain ⟨row, -, rfl⟩ := List.mem_map.1 hcall
    exact fun _ => rfl

theorem sees_people : (run peopleCalls).Sees 1 "people" (.new people) := ⟨by cbv, by cbv⟩

/-- The second person with one address is refused, and the first one loads back. -/
theorem requests_refine_people :
    (Request.runAll (fun request db => request.perform engine ⟨1, .readCommitted⟩ people db)
        [.insert (person 1 "ada"), .insert (person 2 "ada"), .load (person 1 "")] (run peopleCalls)).1 =
      [.ok .done, .error (.engine .duplicateKey), .ok (.loaded (some (person 1 "ada")))] := by
  refine (requests_refine_finiteMap build_people (by decide) (by decide) respects_peopleCalls sees_people
    fun request hrequest => ?_).1.trans (by cbv)
  fin_cases hrequest
  · exact ⟨_, rfl⟩
  · exact ⟨_, rfl⟩
  · exact ⟨_, rfl⟩

/-- Three people are added to the table. -/
def crowdCalls : List Call := peopleCalls ++
  [.insert ⟨1, .readCommitted⟩ people (person 1 "eve"), .insert ⟨1, .readCommitted⟩ people (person 2 "bob"),
    .insert ⟨1, .readCommitted⟩ people (person 3 "ada")]

/-- What the transaction then sees. -/
def crowd : Table := [[.int 1, .text "eve"], [.int 2, .text "bob"], [.int 3, .text "ada"]].foldl
  (fun t cells => (Table.insert cells t).2) (Table.new people)

theorem respects_crowdCalls : ∀ call ∈ crowdCalls, call.Respects people :=
  respects_inserts respects_peopleCalls [person 1 "eve", person 2 "bob", person 3 "ada"]

theorem sees_crowd : (run crowdCalls).Sees 1 "people" crowd := ⟨by cbv, by cbv⟩

/-- The crowd is consistent, as all tables are: its index on the addresses has just the entries of its three rows. -/
theorem consistent_run_crowd : crowd.Consistent ∧ crowd.rows.keys = [[.int 1], [.int 2], [.int 3]] ∧
    crowd.indexes.get? "mails" = some ⟨[([.text "ada", .int 3], [.int 3]), ([.text "bob", .int 2], [.int 2]),
      ([.text "eve", .int 1], [.int 1])]⟩ :=
  ⟨((consistent_run crowdCalls).sees sees_crowd).2.2, by cbv, by cbv⟩

end Database
end Memory
end RowStore

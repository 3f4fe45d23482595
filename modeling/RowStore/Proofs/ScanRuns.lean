import RowStore.Proofs.PopulatedRuns
import RowStore.Proofs.ScanOpening

/-!
# Scans hand out the rows of the reference

However a plan is read out, its rows are those of the reference, in order (`Scan.HandsOut`): collected from an open scan,
visited one by one, or folded.  The proof follows the entries that are still before the scan (`ends_collect`); each step
takes the first of them that is handed out (`ends_nextMapped_some`), and behind the last the scan is closed.
-/
namespace RowStore

open Memory (Cursor Database Transaction Table engine)

namespace Scan

variable {α ρ β : Type}

/-- What a function that keeps notes makes of some rows, and the notes in the end. -/
def mapped (f : Row → ρ → β × ρ) : List Row → ρ → List β × ρ
  | [], notes => ([], notes)
  | row :: rows, notes =>
    let (b, notes) := f row notes
    let (bs, notes) := mapped f rows notes
    (b :: bs, notes)

theorem mapped_visit (visit : ρ → Row → ρ) : ∀ (rows : List Row) (notes : ρ),
    (mapped (fun row notes => ((), visit notes row)) rows notes).2 = rows.foldl visit notes
  | [], _ => rfl
  | row :: rows, notes => mapped_visit visit rows (visit notes row)

/-- Reading a plan out hands out these rows in order, and ends. -/
structure HandsOut (txn : Transaction) (plan : Plan) (rows : List Row) (db : Database) (t : Table) : Prop where
  /-- An open scan is closed behind the last row. -/
  collect : ∀ write : Bool, ∃ scan db', Scan.open engine txn plan write db = (.ok scan, db') ∧
    ∀ {ρ β : Type} (f : Row → ρ → β × ρ) (notes : ρ) (limit : Nat), rows.length ≤ limit →
      Attempt.Ends (Scan.collect engine f limit) (notes, scan, db') (.ok (mapped f rows notes).1)
        fun s => s.1 = (mapped f rows notes).2 ∧ s.2.1.state = .closed ∧ s.2.2.Sees txn.id plan.target.schema.name t
  forEach : ∀ {ρ : Type} (visit : ρ → Row → ρ) (notes : ρ),
    Attempt.Ends (Scan.forEach engine txn plan visit) (notes, db) (.ok ())
      fun s => s.1 = rows.foldl visit notes ∧ s.2.Sees txn.id plan.target.schema.name t
  fold : ∀ {α : Type} (f : α → Row → α) (initial : α),
    Attempt.Ends (Scan.fold engine txn plan f initial) db (.ok (rows.foldl f initial))
      fun db' => db'.Sees txn.id plan.target.schema.name t

end Scan

namespace Memory

open Attempt

variable {plan : Plan} {index : Option Index} {key : Key} {txn : Transaction} {db : Database} {t : Table}
  {l : List (Key × List Cell)} {progress : Progress Cursor} {ρ β : Type} {f : Row → ρ → β × ρ}

/-! ## From an open scan -/

theorem ends_nextMapped_none (hahead : Progress.Ahead plan txn.id index l progress) (hnext : plan.next? l = none)
    (notes : ρ) (db : Database) :
    Ends (Scan.nextMapped engine f) (notes, ⟨plan, progress⟩, db) (.ok none) (· = (notes, ⟨plan, .closed⟩, db)) := by
  refine Ends.bind (Ends.below (ends_next_none hahead hnext db)) fun s hs => Ends.pure ?_
  obtain ⟨notes', s⟩ := s
  obtain ⟨rfl, rfl⟩ := hs
  rfl

theorem ends_nextMapped_some (ht : t.Readable plan.target.schema index)
    (hahead : Progress.Ahead plan txn.id index l progress) {e : Key × List Cell} {rest : List (Key × List Cell)}
    (hnext : plan.next? l = some (e, rest)) (hremaining : (t.view index).Remaining plan.direction rest)
    (h : db.Has txn.id plan.target.schema.name t) (notes : ρ) :
    ∃ progress', Progress.Ahead plan txn.id index rest progress' ∧
      Ends (Scan.nextMapped engine f) (notes, ⟨plan, progress⟩, db)
        (.ok (some (f (plan.target.schema.rowOf e.2) notes).1))
        fun s => s.1 = (f (plan.target.schema.rowOf e.2) notes).2 ∧ s.2.1 = ⟨plan, progress'⟩ ∧
          s.2.2.Has txn.id plan.target.schema.name t := by
  obtain ⟨progress', hahead', hrow⟩ := ends_next_some ht hahead hnext hremaining h
  refine ⟨progress', hahead', Ends.bind (Ends.below hrow) fun s hs => ?_⟩
  obtain ⟨notes', scan, db'⟩ := s
  obtain ⟨rfl, rfl, h'⟩ := hs
  exact ⟨rfl, rfl, rfl, h'⟩

theorem Progress.Ahead.eq_closed (hahead : Progress.Ahead plan txn.id index l progress) (hnext : plan.next? l = none) :
    progress = .closed := by
  cases progress with
  | closed => rfl
  | running held row =>
    obtain ⟨e, rest, heq, -⟩ := hahead
    rw [hnext] at heq
    cases heq

/-- **What is left of a scan is collected**, and the scan is then closed. -/
theorem ends_collect (ht : t.Readable plan.target.schema index) : ∀ {limit : Nat} {l : List (Key × List Cell)}
    {progress : Progress Cursor} (notes : ρ) {db : Database} {rows : List Row},
    (plan.keep (l.map (·.2))).map plan.target.schema.rowOf = rows → rows.length ≤ limit →
      (t.view index).Remaining plan.direction l → Progress.Ahead plan txn.id index l progress →
      db.Has txn.id plan.target.schema.name t →
      Ends (Scan.collect engine f limit) (notes, ⟨plan, progress⟩, db) (.ok (Scan.mapped f rows notes).1)
        fun s => s.1 = (Scan.mapped f rows notes).2 ∧ s.2.1 = ⟨plan, .closed⟩ ∧
          s.2.2.Has txn.id plan.target.schema.name t := by
  intro limit
  -- the entries before the scan change with every row, so the induction is on the limit, for all of them
  induction limit with
  | zero =>
    -- nothing is asked for any more, but the scan has closed itself behind the last row
    intro l progress notes db rows hrows hlimit hremaining hahead h
    cases List.length_eq_zero_iff.1 (Nat.le_zero.1 hlimit)
    rw [hahead.eq_closed (Plan.next?_of_keep_eq_nil (List.map_eq_nil_iff.1 hrows))]
    exact Ends.pure ⟨rfl, rfl, h⟩
  | succ limit ih =>
    intro l progress notes db rows hrows hlimit hremaining hahead h
    rw [Plan.keep_eq] at hrows
    cases hnext : plan.next? l with
    | none =>
      rw [hnext] at hrows
      subst hrows
      refine Ends.bind (ends_nextMapped_none hahead hnext notes db) fun s hs => ?_
      subst hs
      exact Ends.pure ⟨rfl, rfl, h⟩
    | some x =>
      obtain ⟨e, rest⟩ := x
      rw [hnext] at hrows
      subst hrows
      obtain ⟨he, hrest⟩ := Plan.ahead_of_next? ht.ascending hremaining hnext
      have hremaining' := OrderedMap.remaining_ahead ht.ascending hrest
      obtain ⟨progress', hahead', hrow⟩ := ends_nextMapped_some ht hahead hnext hremaining' h notes
      refine Ends.bind hrow fun s hs => ?_
      obtain ⟨notes', scan, db'⟩ := s
      obtain ⟨rfl, rfl, h'⟩ := hs
      refine Ends.bind (ih _ rfl (Nat.le_of_succ_le_succ hlimit) hremaining' hahead' h') fun s hs => ?_
      exact Ends.pure hs

/-! ## From the opening -/

theorem keep_walk (ht : t.Populated plan.target.schema) (index : Option Index) (key : Key) :
    plan.keep ((t.walk index key plan.searchMode plan.direction).map (·.2)) = plan.visited index key t.rows.values := by
  unfold Table.walk
  rw [Plan.visited_eq, ht.sound.schema, List.map_map]
  exact congrArg plan.keep (List.map_id _)

/-- The bound of an open scan suffices. -/
theorem length_le_rowBound (ht : t.Readable plan.target.schema index)
    (hremaining : (t.view index).Remaining plan.direction l) (hahead : Progress.Ahead plan txn.id index l progress) (h : db.Has txn.id plan.target.schema.name t) :
    ((plan.keep (l.map (·.2))).map plan.target.schema.rowOf).length ≤ Scan.rowBound engine ⟨plan, progress⟩ db + 1 := by
  rw [List.length_map]
  cases progress with
  | closed =>
    have hnext : plan.next? l = none := hahead
    rw [Plan.keep_eq, hnext]
    exact Nat.zero_le _
  | running held row =>
    obtain ⟨e, rest, -, -, hheld⟩ := hahead
    have hkept : (plan.keep (l.map (·.2))).length ≤ l.length := by
      refine (plan.keep_sublist _).length_le.trans ?_
      rw [List.length_map]
    have hsize := hremaining.length_le ht.ascending
    show _ ≤ engine.entryBound (held.cursors.active, db) + 1 + 1
    rw [entryBound_eq ht hheld.walks h]
    omega

/-- **A plan is read out as the reference says**, in a transaction that sees the table. -/
theorem handsOut (ht : t.Readable plan.target.schema index) (hindex : plan.target.secondaryIndex = .ok index)
    (hkey : (plan.target.keyColumns >>= fun columns => encodeLeading columns plan.keyRow) = .ok key)
    (h : db.Sees txn.id plan.target.schema.name t) :
    Scan.HandsOut txn plan (plan.handedOut index key t.rows.values) db t := by
  have hrows : (plan.keep ((t.walk index key plan.searchMode plan.direction).map (·.2))).map plan.target.schema.rowOf =
      plan.handedOut index key t.rows.values := by
    rw [keep_walk ht.populated]
    rfl
  have hremaining := (ht.remaining_walk hindex hkey).2
  have hforEach : ∀ {ρ : Type} (visit : ρ → Row → ρ) (notes : ρ),
      Ends (Scan.forEach engine txn plan visit) (notes, db) (.ok ())
        fun s => s.1 = (plan.handedOut index key t.rows.values).foldl visit notes ∧
          s.2.Sees txn.id plan.target.schema.name t := by
    intro ρ visit notes
    obtain ⟨progress, hahead, hopen⟩ := ends_open ht hindex hkey false h
    obtain ⟨db', hdb', h'⟩ := hopen.apply
    have hbound := length_le_rowBound ht hremaining hahead h'
    rw [hrows] at hbound
    obtain ⟨⟨notes', scan, db''⟩, hcollect, hnotes, rfl, h''⟩ := (ends_collect ht
      (f := fun row notes => ((), visit notes row)) notes hrows hbound hremaining hahead h').apply
    refine Ends.of_apply (u := (notes', db'')) ?_ ⟨hnotes.trans (Scan.mapped_visit visit _ notes), h''.sees⟩
    unfold Scan.forEach
    dsimp only
    rw [hdb']
    dsimp only
    rw [bind_apply, hcollect]
    rfl
  refine ⟨fun write => ?_, hforEach, fun f initial => ?_⟩
  · obtain ⟨progress, hahead, hopen⟩ := ends_open ht hindex hkey write h
    obtain ⟨db', hdb', h'⟩ := hopen.apply
    refine ⟨⟨plan, progress⟩, db', hdb', fun f notes limit hlimit => ?_⟩
    refine (ends_collect ht notes hrows hlimit hremaining hahead h').mono fun s hs => ?_
    obtain ⟨notes', scan, db''⟩ := s
    obtain ⟨rfl, rfl, h''⟩ := hs
    exact ⟨rfl, rfl, h''.sees⟩
  · obtain ⟨⟨a, db'⟩, hvisit, rfl, h'⟩ := (hforEach f initial).apply
    refine Ends.of_apply (u := db') ?_ h'
    unfold Scan.fold
    rw [hvisit]

namespace Database

/-- **Scans hand out exactly the rows of the reference**, of any table that only rows of its schema have come into: by its
clustered index or a secondary one, from any search key, in any mode and direction, and with any filters. -/
theorem scans_handOut_reference {d : Declaration} (hbuild : d.build = .ok plan.target.schema)
    (hbasic : plan.target.schema.IsBasic) {calls : List Call} (hcalls : ∀ call ∈ calls, call.Respects plan.target.schema)
    (ht : (run calls).Sees txn.id plan.target.schema.name t) (hindex : plan.target.secondaryIndex = .ok index)
    (hkey : (plan.target.keyColumns >>= fun columns => encodeLeading columns plan.keyRow) = .ok key) :
    Scan.HandsOut txn plan (plan.handedOut index key t.rows.values) (run calls) t := by
  have hschema := TableSchema.wellFormed_of_build hbuild
  exact handsOut ⟨hschema, hbasic, Target.mem_secondary hindex, populated_of_sees hschema hbasic hcalls ht⟩ hindex hkey ht

/-- A fourth person joins the crowd. -/
def companyCalls : List Call := crowdCalls ++ [.insert ⟨1, .readCommitted⟩ people (person 4 "dan")]

def company : Table := (Table.insert [.int 4, .text "dan"] crowd).2

/-- By address, from the last one before eve back to the first that is not wanted any more, without the fourth person. -/
def beforeEve : Plan where
  target := ⟨people, some "mails"⟩
  keyRow := ⟨[("mail", .text "eve")]⟩
  direction := .desc
  mode := some .less
  continuation := some fun row => row.value "mail" != .text "ada"
  selection := some fun row => row.value "id" != .int 4

theorem respects_companyCalls : ∀ call ∈ companyCalls, call.Respects people :=
  respects_inserts respects_crowdCalls [person 4 "dan"]

theorem sees_company : (run companyCalls).Sees 1 "people" company := ⟨by cbv, by cbv⟩

/-- A scan with a mode, against the order and with both filters, and what each of these does to it: without the mode it
starts at eve, the other way it goes on to her, without the continuation it goes on to ada, and without the selection it
does not leave out dan. -/
theorem scans_handOut_company :
    Scan.HandsOut ⟨1, .readCommitted⟩ beforeEve [person 2 "bob"] (run companyCalls) company ∧
      Scan.HandsOut ⟨1, .readCommitted⟩ { beforeEve with mode := none } [person 1 "eve", person 2 "bob"]
        (run companyCalls) company ∧
      Scan.HandsOut ⟨1, .readCommitted⟩ { beforeEve with direction := .asc } [person 1 "eve"]
        (run companyCalls) company ∧
      Scan.HandsOut ⟨1, .readCommitted⟩ { beforeEve with continuation := none } [person 2 "bob", person 3 "ada"]
        (run companyCalls) company ∧
      Scan.HandsOut ⟨1, .readCommitted⟩ { beforeEve with selection := none } [person 4 "dan", person 2 "bob"]
        (run companyCalls) company := by
  have hbasic : people.IsBasic := by decide
  have hrows : company.rows.values =
      [[.int 1, .text "eve"], [.int 2, .text "bob"], [.int 3, .text "ada"], [.int 4, .text "dan"]] := by cbv
  have hkey : (Target.keyColumns ⟨people, some "mails"⟩ >>= fun columns =>
      encodeLeading columns ⟨[("mail", .text "eve")]⟩) = .ok [.text "eve"] := by cbv
  have hscan : ∀ {plan : Plan} {rows : List Row}, plan.target = ⟨people, some "mails"⟩ →
      plan.keyRow = ⟨[("mail", .text "eve")]⟩ →
      plan.handedOut (some ⟨"mails", [⟨"mail", .varchar, 20, [], 1⟩], false, true⟩) [.text "eve"]
        company.rows.values = rows → Scan.HandsOut ⟨1, .readCommitted⟩ plan rows (run companyCalls) company := by
    rintro ⟨target, keyRow, direction, mode, continuation, selection⟩ rows rfl rfl rfl
    exact scans_handOut_reference build_people hbasic respects_companyCalls sees_company rfl hkey
  rw [hrows] at hscan
  exact ⟨hscan rfl rfl (by cbv), hscan rfl rfl (by cbv), hscan rfl rfl (by cbv), hscan rfl rfl (by cbv),
    hscan rfl rfl (by cbv)⟩

end Database

end Memory
end RowStore

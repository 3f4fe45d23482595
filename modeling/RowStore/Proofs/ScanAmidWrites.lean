import RowStore.Proofs.Mirrors
import RowStore.Proofs.SweepRuns

/-!
# Scans while rows are written

While a scan is open, its transaction may write to the table as it likes.  Between two pulls all that matters of the scan
is the row that it has read ahead and the place where its cursor rests (`Standing`), and a pull sees the table as it then
is.  It hands out the row and reads on from the place, as long as the place is still an entry of the index
(`Standing.passOn`).  If the entry has been taken out or moved, the pull fails, the row that had been read ahead is not
handed out, and the scan is closed (`Standing.pull`).  So a scan goes on as if it passed over what is gone up to the first
pull that meets a gap (`Database.scans_amid_writes`), and there it fails (`Database.scan_loses_place`).
-/
namespace RowStore

open Memory (Cursor Database Transaction Table engine project entryColumns)

/-! ## The reference -/

/-- The entries that a walk has before it from a place on, the place included if it is an entry. -/
def OrderedMap.resumed {β : Type} (m : OrderedMap Key β) (direction : Direction) : Option Key → List (Key × β)
  | none => []
  | some place => ((m.get? place).map fun v => (place, v)).toList ++ m.ahead place direction

/-- What matters of a scan between two pulls. -/
inductive Standing
  /-- `next` has been read ahead, and the cursor rests at a place, or behind the last entry. -/
  | running (next : Row) (place : Option Key)
  | closed

/-- How a scan stands that has some entries before it. -/
def Plan.reached (plan : Plan) (l : List (Key × List Cell)) : Standing :=
  match plan.next? l with
  | none => .closed
  | some (e, rest) => .running (plan.target.schema.rowOf e.2) (rest.head?.map (·.1))

namespace Standing

/-- The cursor rests at a place that is no entry any more. -/
def isLost (m : OrderedMap Key (List Cell)) : Standing → Bool
  | running _ (some place) => !m.contains place
  | _ => false

/-- Hands out the row that was read ahead and reads on, passing over the place if it is no entry any more. -/
def passOn (plan : Plan) (m : OrderedMap Key (List Cell)) : Standing → Option Row × Standing
  | running next place => (some next, plan.reached (m.resumed plan.direction place))
  | closed => (none, closed)

variable (plan : Plan) (index : Option Index)

/-- A pull that passes over what is gone. -/
def passOver : Action (Standing × Table) (Option Row) := fun (standing, t) =>
  let (row, standing) := standing.passOn plan (t.view index)
  (.ok row, (standing, t))

/-- **A pull as it is**: it passes nothing over. -/
def pull : Action (Standing × Table) (Option Row) := fun (standing, t) =>
  if standing.isLost (t.view index) then (.error (.engine .recordNotFound), (.closed, t))
  else passOver plan index (standing, t)

def close : Action (Standing × Table) Unit := Attempt.modify fun (_, t) => (.closed, t)

end Standing

/-- A mutation as work on a table. -/
def Mutation.work (mutation : Mutation) (schema : TableSchema) : Action Table Bool :=
  match mutation with
  | noOp => return false
  | upsert row => Table.Work.insertOrUpdate schema row
  | delete row => Table.Work.delete schema row

/-- What may happen while a scan is open: a pull, a request in the same transaction, or a visit of a sweep. -/
inductive Turn (ρ : Type)
  | pull
  | request (request : Memory.Request)
  | visit (decide : Row → ρ → Mutation × ρ)

/-- What comes of it. -/
inductive Turn.Answer
  | row (row : Option Row)
  | reply (reply : Memory.Reply)
  | mutation (mutation : Option Mutation)
  deriving DecidableEq

namespace Turn
variable {ρ : Type}

/-- A turn with a scan in memory. -/
def take (txn : Transaction) (schema : TableSchema) : Turn ρ → Action (ρ × Scan Cursor × Database) Answer
  | pull => Answer.row <$> Attempt.below (Scan.next engine)
  | request r => Answer.reply <$> Attempt.below (Attempt.below (r.perform engine txn schema))
  | visit decide => Answer.mutation <$> Sweep.next engine txn decide

/-- The visit of a row that is pulled: its mutation is carried out, and if that fails the scan is closed. -/
def visited (schema : TableSchema) (pulled : Action (Standing × Table) (Option Row)) (decide : Row → ρ → Mutation × ρ) :
    Action (ρ × Standing × Table) (Option Mutation) := do
  match ← Attempt.below pulled with
  | none => return none
  | some row =>
    let mutation ← decided decide row
    match ← Attempt.below (Attempt.outcome (Attempt.below (mutation.work schema))) with
    | .ok _ => return some mutation
    | .error e =>
      let _ ← Attempt.below (Attempt.outcome Standing.close)
      Attempt.fail e
where
  decided (decide : Row → ρ → Mutation × ρ) (row : Row) : Action (ρ × Standing × Table) Mutation := fun (notes, rest) =>
    let (mutation, notes) := decide row notes
    (.ok mutation, (notes, rest))

/-- **The reference for a turn**, with a certain way to pull. -/
def reference (schema : TableSchema) (pulled : Action (Standing × Table) (Option Row)) :
    Turn ρ → Action (ρ × Standing × Table) Answer
  | pull => Answer.row <$> Attempt.below pulled
  | request r => Answer.reply <$> Attempt.below (Attempt.below (r.work schema))
  | visit decide => Answer.mutation <$> visited schema pulled decide

end Turn

namespace Memory

open Attempt

variable {schema : TableSchema} {plan : Plan} {index : Option Index} {key : Key} {txn : Transaction} {db : Database}
  {t : Table} {id : Nat}

/-! ## A place that is an entry, or no more -/

/-- A place where the cursor was put is that of a row which was stored at some time. -/
def Placed (schema : TableSchema) (index : Option Index) (place : Key) : Prop :=
  ∃ cells, StoresRow schema.columns cells ∧ place = project (entryColumns schema index) cells

theorem Table.Readable.placed (ht : t.Readable schema index) {e : Key × List Cell} (he : e ∈ (t.view index).entries) :
    Placed schema index e.1 := by
  have hkey := ((Table.mem_view ht.consistent ht.indexed).1 he).1
  rw [ht.populated.sound.schema] at hkey
  exact ⟨e.2, ht.stores he, hkey⟩

theorem Table.Readable.entryColumns_subset (ht : t.Readable schema index) :
    ∀ c ∈ entryColumns schema index, c ∈ schema.columns := by
  intro c hc
  rcases List.mem_append.1 hc with hc | hc
  · cases index with
    | none => exact absurd hc List.not_mem_nil
    | some i => exact ht.wellFormed.secondary i (ht.secondary i rfl) c hc
  · exact ht.wellFormed.primary c hc

/-- What a view answers at a place stands under the place itself. -/
theorem Table.Readable.mem_of_get? (ht : t.Readable schema index) {place : Key} (hplace : Placed schema index place)
    {cells : List Cell} (hget : (t.view index).get? place = some cells) : (place, cells) ∈ (t.view index).entries := by
  obtain ⟨k, hk, heq⟩ := OrderedMap.exists_mem_of_get? hget
  obtain ⟨stored, hstored, hkey⟩ := ht.placed hk
  obtain ⟨old, hold, rfl⟩ := hplace
  dsimp only at hkey
  subst hkey
  rw [(order_project_eq_iff ht.wellFormed hstored hold ht.entryColumns_subset).1 heq] at hk
  exact hk

theorem remaining_resumed (ht : t.Readable schema index) {place : Option Key} (hplace : ∀ k ∈ place, Placed schema index k)
    (hthere : ∀ k ∈ place, (t.view index).contains k = true) (direction : Direction) :
    (t.view index).Remaining direction ((t.view index).resumed direction place) ∧
      ((t.view index).resumed direction place).head?.map (·.1) = place := by
  cases place with
  | none => exact ⟨fun e rest h => (by cases h), rfl⟩
  | some k =>
    obtain ⟨cells, hget⟩ := Option.isSome_iff_exists.1 (hthere k rfl)
    have hresumed : (t.view index).resumed direction (some k) = (k, cells) :: (t.view index).ahead k direction := by
      unfold OrderedMap.resumed
      dsimp only
      rw [hget]
      rfl
    rw [hresumed]
    refine ⟨fun e rest h => ?_, rfl⟩
    cases h
    exact ⟨ht.mem_of_get? (hplace k rfl) hget, rfl⟩

/-- **A read at a place that is no entry finds nothing.** -/
theorem read?_of_not_contains (ht : t.Readable schema index) {entries : Cursor.Entries}
    (hentries : Cursor.entriesOf t index = .ok entries) {place : Key} (hgone : (t.view index).contains place = false) :
    entries.read? t index.isSome place = none := by
  have hnone : (t.view index).get? place = none := Option.not_isSome_iff_eq_none.1 (by
    show ¬(t.view index).contains place = true
    rw [hgone]
    exact Bool.false_ne_true)
  rcases Table.entriesOf_eq ht.consistent ht.indexed with ⟨rfl, heq⟩ | ⟨i, m, rfl, hget, -, heq⟩
  · rw [hentries] at heq
    cases heq
    exact hnone
  · rw [hentries] at heq
    cases heq
    rw [Table.view_some hget, OrderedMap.get?_eq_none] at hnone
    have hm : m.get? place = none := OrderedMap.get?_eq_none.2 fun e he =>
      hnone (e.1, (t.rows.get? e.2).getD []) (List.mem_map_of_mem he)
    show ((m.get? place).bind fun primaryKey => t.rows.get? primaryKey) = none
    rw [hm, Option.bind_none]

/-- Reading ahead at a place that is no entry fails, and all that the scan holds is released. -/
theorem ends_readAhead_lost (ht : t.Readable plan.target.schema index) {held : Holdings Cursor} {place : Key}
    (hgone : (t.view index).contains place = false) (hheld : Holds held id plan.target.schema index (some place))
    (h : db.Has id plan.target.schema.name t) :
    Ends (Scan.readAhead engine plan held) db (.error (.engine .recordNotFound))
      fun db' => db'.Has id plan.target.schema.name t := by
  obtain ⟨entries, hentries⟩ := Table.exists_entriesOf ht.consistent ht.indexed
  have hwalking : Walking id plan.target.schema index (some place) t (held.tuple, held.cursors.active, db) :=
    ⟨hheld.live, hheld.layout, hheld.walks, h⟩
  have hread : Ends (Scan.readOn engine plan (engine.entryBound (held.cursors.active, db) + 1))
      (held.tuple, held.cursors.active, db) (.error (.engine .recordNotFound))
      (Walking id plan.target.schema index (some place) t) := by
    refine Ends.bind_state ?_
    dsimp only
    rw [hwalking.hasNext, if_neg (by simp)]
    exact Ends.bind_error (hwalking.ends_readRow_gone hentries (read?_of_not_contains ht hentries hgone))
  obtain ⟨⟨tuple, c, db'⟩, hread, hwalking'⟩ := hread.apply
  have hactive : Holdings.onActive
      (fun (tuple, here) => Scan.readOn engine plan (engine.entryBound here + 1) (tuple, here)) (held, db) =
      (.error (.engine .recordNotFound), ({ tuple, cursors := held.cursors.withActive c }, db')) :=
    Holdings.onActive_eq hread
  have hheld' : Holds { tuple, cursors := held.cursors.withActive c } id plan.target.schema index (some place) :=
    ⟨hwalking'.live, hwalking'.layout, (held.cursors.active_withActive c).symm ▸ hwalking'.walks,
      hheld.both.withActive ⟨hwalking'.walks.transaction, hwalking'.walks.schema⟩⟩
  refine Ends.of_apply (u := quietly (Holdings.close engine { tuple, cursors := held.cursors.withActive c }) db') ?_
    (ends_closeHoldings hheld' hwalking'.has).after
  unfold Scan.readAhead
  simp only [hactive]

/-! ## A scan against its standing -/

/-- A scan stands as told. -/
def Stands (plan : Plan) (id : Nat) (index : Option Index) (scan : Scan Cursor) (standing : Standing) : Prop :=
  scan.plan = plan ∧
    match scan.progress, standing with
    | .running held row, .running next place =>
      row = next ∧ Holds held id plan.target.schema index place ∧ ∀ k ∈ place, Placed plan.target.schema index k
    | .closed, .closed => True
    | _, _ => False

/-- A transaction has a table that can be scanned. -/
def Shows (plan : Plan) (id : Nat) (index : Option Index) (db : Database) (t : Table) : Prop :=
  db.Has id plan.target.schema.name t ∧ t.Readable plan.target.schema index

/-- **A scan that has some entries before it stands as `reached` says.** -/
theorem stands_reached (ht : t.Readable plan.target.schema index) {l : List (Key × List Cell)} {progress : Progress Cursor}
    (hremaining : (t.view index).Remaining plan.direction l) (hahead : Progress.Ahead plan id index l progress) :
    Stands plan id index ⟨plan, progress⟩ (plan.reached l) := by
  refine ⟨rfl, ?_⟩
  unfold Plan.reached
  cases progress with
  | closed =>
    rw [show plan.next? l = none from hahead]
    exact True.intro
  | running held row =>
    obtain ⟨e, rest, hnext, rfl, hheld⟩ := hahead
    rw [hnext]
    refine ⟨rfl, hheld, fun k hk => ?_⟩
    obtain ⟨x, hx, rfl⟩ := Option.map_eq_some_iff.1 hk
    obtain ⟨-, hrest⟩ := Plan.ahead_of_next? ht.ascending hremaining hnext
    exact ht.placed (OrderedMap.mem_ahead.1 (hrest ▸ List.mem_of_mem_head? hx)).1

/-- **A pull is as its reference**, gap or no gap. -/
theorem mirrors_pull : Mirrors (Both (Stands plan id index) (Shows plan id index)) (· = ·) (Scan.next engine)
    (Standing.pull plan index) := by
  rintro ⟨⟨plan', progress⟩, db⟩ ⟨standing, t⟩ ⟨⟨rfl, hstands⟩, h, ht⟩
  cases progress with
  | closed =>
    cases standing with
    | running next place => exact hstands.elim
    | closed => exact ⟨rfl, ⟨rfl, True.intro⟩, h, ht⟩
  | running held row =>
    cases standing with
    | closed => exact hstands.elim
    | running next place =>
      obtain ⟨rfl, hheld, hplaced⟩ := hstands
      unfold Standing.pull Scan.next
      dsimp only
      cases hlost : (Standing.running row place).isLost (t.view index) with
      | true =>
        cases place with
        | none => cases hlost
        | some place =>
          have hgone : (t.view index).contains place = false := by simpa [Standing.isLost] using hlost
          obtain ⟨db', hdb', h'⟩ := (ends_readAhead_lost ht hgone hheld h).apply
          rw [hdb', if_pos rfl]
          exact ⟨rfl, ⟨rfl, True.intro⟩, h', ht⟩
      | false =>
        have hthere : ∀ k ∈ place, (t.view index).contains k = true := by
          rintro k ⟨⟩
          simpa [Standing.isLost] using hlost
        obtain ⟨hremaining, hhead⟩ := remaining_resumed ht hplaced hthere plan'.direction
        rw [← hhead] at hheld
        obtain ⟨progress', hahead, hread⟩ := ends_readAhead ht hremaining hheld h
        obtain ⟨db', hdb', h'⟩ := hread.apply
        rw [hdb', if_neg Bool.false_ne_true]
        exact ⟨rfl, stands_reached ht hremaining hahead, h', ht⟩

/-! ## Writing -/

/-- Work on a table that leaves stored rows is mirrored by the call that does it. -/
theorem mirrors_of_does {α : Type} {call : Action Database α} {work : Action Table α}
    (hdoes : ∀ db t, db.Has txn.id plan.target.schema.name t → t.Readable plan.target.schema index →
      Does plan.target.schema txn db t call work ∧ (work t).2.Populated plan.target.schema) :
    Mirrors (Shows plan txn.id index) (· = ·) call work := by
  rintro db t ⟨h, ht⟩
  obtain ⟨hends, hpopulated⟩ := hdoes db t h ht
  exact ⟨agree_eq_iff.2 hends.result, hends.after, ht.wellFormed, ht.basic, ht.secondary, hpopulated⟩

theorem mirrors_request (request : Request) : Mirrors (Shows plan txn.id index) (· = ·)
    (request.perform engine txn plan.target.schema) (request.work plan.target.schema) :=
  mirrors_of_does fun _ _ h ht => ⟨does_request ht.wellFormed ht.basic ht.populated h.sees request,
    request.populated_work ht.wellFormed ht.basic ht.populated⟩

theorem mirrors_dispatch (mutation : Mutation) : Mirrors (Shows plan txn.id index) (· = ·)
    (mutation.dispatch engine txn plan.target.schema) (mutation.work plan.target.schema) := by
  cases mutation with
  | noOp => exact Mirrors.pure rfl
  | upsert row =>
    exact mirrors_of_does fun _ _ h ht => ⟨does_insertOrUpdate ht.wellFormed ht.basic ht.populated h.sees row,
      Table.Work.populated_insertOrUpdate ht.wellFormed ht.basic ht.populated row⟩
  | delete row =>
    exact mirrors_of_does fun _ _ h ht => ⟨does_delete ht.wellFormed ht.basic ht.populated h.sees row,
      Table.Work.populated_delete ht.wellFormed ht.populated row⟩

/-! ## Turns -/

variable {ρ : Type}

theorem mirrors_close : Mirrors (Both (Stands plan id index) (Shows plan id index)) (· = ·) (Scan.close engine)
    Standing.close := by
  rintro ⟨⟨plan', progress⟩, db⟩ ⟨standing, t⟩ ⟨⟨rfl, hstands⟩, h, ht⟩
  cases progress with
  | closed => exact ⟨rfl, ⟨rfl, True.intro⟩, h, ht⟩
  | running held row =>
    cases standing with
    | closed => exact hstands.elim
    | running next place =>
      obtain ⟨db', hclose, h'⟩ := (ends_closeHoldings hstands.2.1 h).apply
      unfold Scan.close
      dsimp only
      rw [hclose]
      exact ⟨rfl, ⟨rfl, True.intro⟩, h', ht⟩

/-- The mutation of a visited row, on the scan's own schema. -/
theorem mirrors_carry (mutation : Mutation) :
    Mirrors (Both (· = ·) (Both (Stands plan txn.id index) (Shows plan txn.id index))) (· = ·)
      (do
        match ← Attempt.below (Attempt.outcome (Attempt.below (mutation.dispatch engine txn plan.target.schema))) with
        | .ok _ => return some mutation
        | .error e =>
          let _ ← Attempt.below (Attempt.outcome (Scan.close engine))
          Attempt.fail e : Action (ρ × Scan Cursor × Database) (Option Mutation))
      (do
        match ← Attempt.below (Attempt.outcome (Attempt.below (mutation.work plan.target.schema))) with
        | .ok _ => return some mutation
        | .error e =>
          let _ ← Attempt.below (Attempt.outcome Standing.close)
          Attempt.fail e) := by
  refine Mirrors.bind (Mirrors.below (Mirrors.outcome (Mirrors.below (mirrors_dispatch mutation)))) fun done _ hagree => ?_
  cases agree_eq_iff.1 hagree
  cases done with
  | ok hit => exact Mirrors.pure rfl
  | error e => exact Mirrors.bind (Mirrors.below (Mirrors.outcome mirrors_close)) fun _ _ _ => Mirrors.fail e

/-- **A visit is a pull and the mutation of the row.** -/
theorem mirrors_visit (decide : Row → ρ → Mutation × ρ) :
    Mirrors (Both (· = ·) (Both (Stands plan txn.id index) (Shows plan txn.id index))) (· = ·)
      (Sweep.next engine txn decide) (Turn.visited plan.target.schema (Standing.pull plan index) decide) := by
  unfold Sweep.next Scan.nextMapped
  rw [bind_assoc]
  refine Mirrors.bind (Mirrors.below mirrors_pull) fun pulled _ heq => ?_
  subst heq
  cases pulled with
  | none => exact Mirrors.pure rfl
  | some row =>
    refine Mirrors.bind (A := fun decided mutation => decided = some mutation) ?_ fun decided mutation heq => ?_
    · rintro ⟨notes, s⟩ ⟨_, s'⟩ ⟨rfl, hs⟩
      exact ⟨rfl, rfl, hs⟩
    · subst heq
      -- the schema that the sweep reads off its scan is that of the plan
      rintro ⟨notes, ⟨plan', progress⟩, db⟩ s' hs
      obtain rfl : plan' = plan := hs.2.1.1
      exact mirrors_carry mutation _ _ hs

/-- **A turn is as its reference.** -/
theorem mirrors_turn (turn : Turn ρ) :
    Mirrors (Both (· = ·) (Both (Stands plan txn.id index) (Shows plan txn.id index))) (· = ·)
      (turn.take txn plan.target.schema) (turn.reference plan.target.schema (Standing.pull plan index)) := by
  cases turn with
  | pull => exact (Mirrors.below mirrors_pull).map fun _ _ h => congrArg _ h
  | request request => exact (Mirrors.below (Mirrors.below (mirrors_request request))).map fun _ _ h => congrArg _ h
  | visit decide => exact (mirrors_visit decide).map fun _ _ h => congrArg _ h

/-! ## Up to the first gap -/

/-- **A turn that does not fail for a gap passes nothing over.** -/
theorem reference_passOver (turn : Turn ρ) (s : ρ × Standing × Table)
    (h : (turn.reference schema (Standing.pull plan index) s).1 ≠ .error (.engine .recordNotFound)) :
    turn.reference schema (Standing.pull plan index) s = turn.reference schema (Standing.passOver plan index) s := by
  obtain ⟨notes, standing, t⟩ := s
  cases hlost : standing.isLost (t.view index) with
  | false =>
    have hpull : Attempt.below (ρ := ρ) (Standing.pull plan index) (notes, standing, t) =
        Attempt.below (Standing.passOver plan index) (notes, standing, t) := by
      unfold Attempt.below Standing.pull
      dsimp only
      rw [hlost, if_neg Bool.false_ne_true]
    cases turn with
    | request request => rfl
    | pull =>
      show (Turn.Answer.row <$> Attempt.below (Standing.pull plan index)) _ =
        (Turn.Answer.row <$> Attempt.below (Standing.passOver plan index)) _
      rw [map_apply, map_apply, hpull]
    | visit decide =>
      show (Turn.Answer.mutation <$> Turn.visited schema (Standing.pull plan index) decide) _ =
        (Turn.Answer.mutation <$> Turn.visited schema (Standing.passOver plan index) decide) _
      unfold Turn.visited
      rw [map_apply, map_apply, bind_apply, bind_apply, hpull]
  | true =>
    have hpull : Attempt.below (ρ := ρ) (Standing.pull plan index) (notes, standing, t) =
        (.error (.engine .recordNotFound), (notes, .closed, t)) := by
      unfold Attempt.below Standing.pull
      dsimp only
      rw [hlost, if_pos rfl]
    cases turn with
    | request request => rfl
    | pull =>
      refine absurd ?_ h
      show ((Turn.Answer.row <$> Attempt.below (Standing.pull plan index)) _).1 = _
      rw [map_apply, hpull]
      rfl
    | visit decide =>
      refine absurd ?_ h
      show ((Turn.Answer.mutation <$> Turn.visited schema (Standing.pull plan index) decide) _).1 = _
      unfold Turn.visited
      rw [map_apply, bind_apply, hpull]
      rfl

namespace Database

/-- A scan of a populated table can be opened, and from then on it stands as told. -/
theorem exists_stands {d : Declaration} (hbuild : d.build = .ok plan.target.schema)
    (hbasic : plan.target.schema.IsBasic) {calls : List Call} (hcalls : ∀ call ∈ calls, call.Respects plan.target.schema)
    (ht : (run calls).Sees txn.id plan.target.schema.name t) (hindex : plan.target.secondaryIndex = .ok index)
    (hkey : (plan.target.keyColumns >>= fun columns => encodeLeading columns plan.keyRow) = .ok key) (write : Bool) :
    ∃ scan db, Scan.open engine txn plan write (run calls) = (.ok scan, db) ∧
      Both (Stands plan txn.id index) (Shows plan txn.id index) (scan, db)
        (plan.reached (t.walk index key plan.searchMode plan.direction), t) := by
  have hschema := TableSchema.wellFormed_of_build hbuild
  have hreadable : t.Readable plan.target.schema index :=
    ⟨hschema, hbasic, Target.mem_secondary hindex, populated_of_sees hschema hbasic hcalls ht⟩
  obtain ⟨progress, hahead, hopen⟩ := ends_open hreadable hindex hkey write ht
  obtain ⟨db, hdb, h⟩ := hopen.apply
  exact ⟨⟨plan, progress⟩, db, hdb, stands_reached hreadable (hreadable.remaining_walk hindex hkey).2 hahead, h, hreadable⟩

/-- A scan that has been opened answers as one that stands so. -/
theorem exists_answers {d : Declaration} (hbuild : d.build = .ok plan.target.schema)
    (hbasic : plan.target.schema.IsBasic) {calls : List Call} (hcalls : ∀ call ∈ calls, call.Respects plan.target.schema)
    (ht : (run calls).Sees txn.id plan.target.schema.name t) (hindex : plan.target.secondaryIndex = .ok index)
    (hkey : (plan.target.keyColumns >>= fun columns => encodeLeading columns plan.keyRow) = .ok key) (write : Bool)
    {standing : Standing} (hreached : plan.reached (t.walk index key plan.searchMode plan.direction) = standing)
    {ρ : Type} (turns : List (Turn ρ)) (notes : ρ) :
    ∃ scan db, Scan.open engine txn plan write (run calls) = (.ok scan, db) ∧
      (each (Turn.take txn plan.target.schema) turns (notes, scan, db)).1 =
        (each (Turn.reference plan.target.schema (Standing.pull plan index)) turns (notes, standing, t)).1 := by
  obtain ⟨scan, db, hopen, hstands⟩ := exists_stands hbuild hbasic hcalls ht hindex hkey write
  rw [hreached] at hstands
  exact ⟨scan, db, hopen, (each_mirrors (fun turn _ => mirrors_turn turn)
    (show Both (· = ·) _ (notes, scan, db) (notes, _) from ⟨rfl, hstands⟩)).1⟩

/-- **A scan while its transaction writes.**  Whatever requests are made and whatever a sweep's mutations do between the
pulls, the answers are those of the reference: a pull hands out the row that was read ahead and reads on from the place
of the cursor in the table as it then is, unless the entry there has been taken out or moved; then it fails.  Up to the
first such failure all is as if the scan passed over what is gone. -/
theorem scans_amid_writes {d : Declaration} (hbuild : d.build = .ok plan.target.schema)
    (hbasic : plan.target.schema.IsBasic) {calls : List Call} (hcalls : ∀ call ∈ calls, call.Respects plan.target.schema)
    (ht : (run calls).Sees txn.id plan.target.schema.name t) (hindex : plan.target.secondaryIndex = .ok index)
    (hkey : (plan.target.keyColumns >>= fun columns => encodeLeading columns plan.keyRow) = .ok key) (write : Bool) :
    ∃ scan db, Scan.open engine txn plan write (run calls) = (.ok scan, db) ∧
      ∀ {ρ : Type} (turns : List (Turn ρ)) (notes : ρ),
        let made := each (Turn.take txn plan.target.schema) turns (notes, scan, db)
        let told := fun pulled => each (Turn.reference plan.target.schema pulled) turns
          (notes, plan.reached (t.walk index key plan.searchMode plan.direction), t)
        made.1 = (told (Standing.pull plan index)).1 ∧
          made.2.2.2.Sees txn.id plan.target.schema.name (told (Standing.pull plan index)).2.2.2 ∧
          (.error (.engine .recordNotFound) ∉ made.1 →
            told (Standing.pull plan index) = told (Standing.passOver plan index)) := by
  obtain ⟨scan, db, hdb, hstands⟩ := exists_stands hbuild hbasic hcalls ht hindex hkey write
  refine ⟨scan, db, hdb, fun {ρ} turns notes => ?_⟩
  obtain ⟨hanswers, -, -, hshows⟩ := each_mirrors (fun turn (_ : turn ∈ turns) => mirrors_turn turn)
    (show Both (· = ·) (Both (Stands plan txn.id index) (Shows plan txn.id index)) (notes, scan, db) (notes, _) from
      ⟨rfl, hstands⟩)
  refine ⟨hanswers, hshows.1.sees, fun hnot => ?_⟩
  rw [hanswers] at hnot
  exact each_eq_of_not_mem reference_passOver hnot

/-- A scan of the crowd by address has read the first row and rests at the second one's entry. -/
theorem reached_crowd :
    byMail.reached (crowd.walk (some ⟨"mails", [⟨"mail", .varchar, 20, [], 1⟩], false, true⟩) [.text "b"]
      byMail.searchMode byMail.direction) = .running (person 2 "bob") (some [.text "eve", .int 1]) := by cbv

/-- The one whose row has been read ahead is taken out, and is handed out none the less. -/
theorem scans_amid_writes_crowd :
    ∃ scan db, Scan.open engine ⟨1, .readCommitted⟩ byMail false (run crowdCalls) = (.ok scan, db) ∧
      (each (Turn.take ⟨1, .readCommitted⟩ people) [.request (.delete (person 2 "")), .pull, .pull, .pull]
        ((), scan, db)).1 =
        [.ok (.reply (.found true)), .ok (.row (some (person 2 "bob"))), .ok (.row (some (person 1 "eve"))),
          .ok (.row none)] := by
  have hsees : (run crowdCalls).Sees (Transaction.mk 1 .readCommitted).id people.name crowd := sees_crowd
  obtain ⟨scan, db, hopen, hturns⟩ := scans_amid_writes build_people (by decide) respects_crowdCalls hsees
    (show byMail.target.secondaryIndex = _ from rfl) (show _ = Except.ok [Cell.text "b"] from rfl) false
  have htold := (hturns [.request (.delete (person 2 "")), .pull, .pull, .pull] ()).1
  dsimp only at htold
  rw [reached_crowd] at htold
  exact ⟨scan, db, hopen, htold⟩

/-- Three people, numbered in the order of their addresses. -/
def queueCalls : List Call := peopleCalls ++
  [.insert ⟨1, .readCommitted⟩ people (person 1 "ada"), .insert ⟨1, .readCommitted⟩ people (person 2 "bob"),
    .insert ⟨1, .readCommitted⟩ people (person 3 "eve")]

def queue : Table := [[.int 1, .text "ada"], [.int 2, .text "bob"], [.int 3, .text "eve"]].foldl
  (fun t cells => (Table.insert cells t).2) (Table.new people)

/-- All of them by number. -/
def everyone : Plan where
  target := ⟨people, none⟩

theorem respects_queueCalls : ∀ call ∈ queueCalls, call.Respects people :=
  respects_inserts respects_peopleCalls [person 1 "ada", person 2 "bob", person 3 "eve"]

theorem sees_queue : (run queueCalls).Sees 1 "people" queue := ⟨by cbv, by cbv⟩

theorem reached_queue : everyone.reached (queue.walk none [] everyone.searchMode everyone.direction) =
    .running (person 1 "ada") (some [.int 2]) := by cbv

/-- The one on whose entry the cursor rests is taken out: the next pull fails, although it has a row to hand out, and
those behind him are not handed out any more.  So it is on the primary key and on an index. -/
theorem scan_loses_place :
    (∃ scan db, Scan.open engine ⟨1, .readCommitted⟩ everyone false (run queueCalls) = (.ok scan, db) ∧
      (each (Turn.take ⟨1, .readCommitted⟩ people) [.request (.delete (person 2 "")), .pull, .pull] ((), scan, db)).1 =
        [.ok (.reply (.found true)), .error (.engine .recordNotFound), .ok (.row none)]) ∧
    ∃ scan db, Scan.open engine ⟨1, .readCommitted⟩ byMail false (run crowdCalls) = (.ok scan, db) ∧
      (each (Turn.take ⟨1, .readCommitted⟩ people) [.request (.delete (person 1 "")), .pull, .pull] ((), scan, db)).1 =
        [.ok (.reply (.found true)), .error (.engine .recordNotFound), .ok (.row none)] := by
  have hqueue : (run queueCalls).Sees (Transaction.mk 1 .readCommitted).id people.name queue := sees_queue
  have hcrowd : (run crowdCalls).Sees (Transaction.mk 1 .readCommitted).id people.name crowd := sees_crowd
  exact ⟨exists_answers build_people (by decide) respects_queueCalls hqueue
      (show everyone.target.secondaryIndex = _ from rfl) (show _ = Except.ok [] from rfl) false reached_queue _ (),
    exists_answers build_people (by decide) respects_crowdCalls hcrowd
      (show byMail.target.secondaryIndex = _ from rfl) (show _ = Except.ok [Cell.text "b"] from rfl) false
      reached_crowd _ ()⟩

end Database

end Memory
end RowStore

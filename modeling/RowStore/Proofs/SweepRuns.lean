import RowStore.Proofs.KeyRows
import RowStore.Proofs.ScanRuns
import RowStore.Proofs.SweepReference

/-!
# Sweeps are not disturbed by their own mutations

The invariant of a sweep: what was ahead of the row that has been visited last, when the sweep was opened, is still ahead of
it (`ends_visit_some`).  A mutation is carried out while the scan is already past the row, and if it is harmless it leaves
what is ahead of the row's entry as it was.  So a sweep visits what a scan would have handed out (`ends_drain`), and the
table is then as the reference says.
-/
namespace RowStore

open Memory (Contents Database Table Transaction engine)

/-- How far a scan is after a mutation: it goes on, or it has been closed because the mutation failed. -/
def Progress.after {κ : Type} (progress : Progress κ) : Except Error Unit → Progress κ
  | .ok () => progress
  | .error _ => .closed

/-- A sweep of a plan visits and leaves what is given, and its scan is closed in the end. -/
def Sweep.Follows {ρ : Type} (txn : Transaction) (plan : Plan) (decide : Row → ρ → Mutation × ρ) (limit : Nat) (notes : ρ)
    (db : Database) (reference : Except Error (List Mutation) × ρ × Contents) : Prop :=
  ∃ scan db' t', Scan.open engine txn plan true db = (.ok scan, db') ∧ t'.contents = reference.2.2 ∧
    Attempt.Ends (Sweep.toEnd engine txn decide limit) (notes, scan, db') reference.1 fun s =>
      s.1 = reference.2.1 ∧ s.2.1.state = .closed ∧ s.2.2.Sees txn.id plan.target.schema.name t'

namespace Memory

open Attempt

variable {schema : TableSchema} {plan : Plan} {index : Option Index} {key : Key} {txn : Transaction} {db : Database}
  {t : Table} {l : List (Key × List Cell)} {progress : Progress Cursor} {visited : List Cell} {mutation : Mutation}

/-! ## Mutations -/

/-- A row that cannot be encoded is not written. -/
theorem ends_insertOrUpdate_error {row : Row} {e : Error} (hrow : schema.encodeRow row = .error e)
    (ht : t.Populated schema) (h : db.Sees txn.id schema.name t) :
    Refines schema txn db (ByKey.insertOrUpdate engine txn schema row) (.error e, t.contents) := by
  refine ⟨t, ht, rfl, ends_withCursor (fun n db' h' => ⟨none, ?_⟩) h⟩
  rw [hrow]
  exact Ends.bind_error (Ends.ofExcept ⟨rfl, h'⟩)

/-- **A mutation of a row that is there ends as it is carried out** on the finite map. -/
theorem ends_dispatch (hschema : schema.Keyed) (ht : t.Populated schema) {direction : Direction}
    (hharmless : mutation.Harmless schema index direction visited)
    (hvisited : t.contents.lookup (project schema.primary.columns visited) = some visited)
    (h : db.Has txn.id schema.name t) :
    ∃ r, r.map (fun _ => ()) = (mutation.carryOut schema (project schema.primary.columns visited) t.contents).1 ∧
      Refines schema txn db (mutation.dispatch engine txn schema)
        (r, (mutation.carryOut schema (project schema.primary.columns visited) t.contents).2) := by
  cases mutation with
  | noOp => exact ⟨.ok false, rfl, t, ht, rfl, Ends.pure h⟩
  | delete row => exact ⟨_, rfl, ends_deleteKey hschema hharmless ht h.sees⟩
  | upsert row =>
    unfold Mutation.carryOut
    dsimp only
    cases hrow : schema.encodeRow row with
    | error e => exact ⟨.error e, rfl, ends_insertOrUpdate_error hrow ht h.sees⟩
    | ok cells =>
      have hkey := hharmless.1
      rw [encodeColumns_eq hschema.wellFormed hrow hschema.wellFormed.primary] at hkey
      have hmem : project schema.primary.columns cells ∈ t.contents := by
        rw [Except.ok.inj hkey]
        exact Finmap.mem_of_lookup_eq_some hvisited
      have hwrite := ends_insertOrUpdate hschema hrow ht h.sees
      unfold Contents.insertOrUpdate at hwrite
      rw [if_pos hmem] at hwrite
      refine ⟨_, ?_, hwrite⟩
      dsimp only
      cases (t.contents.exchange schema cells).1 <;> rfl

/-! ## Visiting a row -/

theorem ends_closeScan (hahead : Progress.Ahead plan txn.id index l progress)
    (h : db.Has txn.id plan.target.schema.name t) :
    Ends (Scan.close engine) (⟨plan, progress⟩, db) (.ok ())
      fun s => s.1 = ⟨plan, .closed⟩ ∧ s.2.Has txn.id plan.target.schema.name t := by
  cases progress with
  | closed => exact ⟨rfl, rfl, h⟩
  | running held row =>
    obtain ⟨e, rest, -, -, hheld⟩ := hahead
    obtain ⟨db', hclose, h'⟩ := (ends_closeHoldings hheld h).apply
    refine Ends.of_apply (u := (⟨plan, .closed⟩, db')) ?_ ⟨rfl, h'⟩
    unfold Scan.close
    dsimp only
    rw [hclose]

variable {ρ : Type} {decide : Row → ρ → Mutation × ρ} {notes notes' : ρ}

theorem ends_visit_none (hahead : Progress.Ahead plan txn.id index l progress) (hnext : plan.next? l = none)
    (notes : ρ) (db : Database) :
    Ends (Sweep.next engine txn decide) (notes, ⟨plan, progress⟩, db) (.ok none) (· = (notes, ⟨plan, .closed⟩, db)) :=
  Ends.bind (ends_nextMapped_none hahead hnext notes db) fun _ hs => Ends.pure hs

/-- **A visit carries the mutation out, and what is ahead of the row stays.** -/
theorem ends_visit_some (hschema : plan.target.schema.Keyed) (ht : t.Readable plan.target.schema index)
    (hahead : Progress.Ahead plan txn.id index l progress) {e : Key × List Cell} {rest : List (Key × List Cell)}
    (hnext : plan.next? l = some (e, rest)) (hremaining : (t.view index).Remaining plan.direction l)
    (hdecide : decide (plan.target.schema.rowOf e.2) notes = (mutation, notes'))
    (hharmless : mutation.Harmless plan.target.schema index plan.direction e.2) {r : Except Error Unit} {m : Contents}
    (hcarry : mutation.carryOut plan.target.schema (project plan.target.schema.primary.columns e.2) t.contents = (r, m))
    (h : db.Has txn.id plan.target.schema.name t) :
    ∃ t' progress', t'.Readable plan.target.schema index ∧ (t'.view index).Remaining plan.direction rest ∧
      Progress.Ahead plan txn.id index rest progress' ∧ t'.contents = m ∧
      Ends (Sweep.next engine txn decide) (notes, ⟨plan, progress⟩, db) (r.map fun _ => some mutation)
        fun s => s.1 = notes' ∧ s.2.1 = ⟨plan, progress'.after r⟩ ∧ s.2.2.Has txn.id plan.target.schema.name t' := by
  obtain ⟨he, hrest⟩ := Plan.ahead_of_next? ht.ascending hremaining hnext
  obtain ⟨progress', hahead', hrow⟩ := ends_nextMapped_some (f := decide) ht hahead hnext
    (OrderedMap.remaining_ahead ht.ascending hrest) h notes
  rw [hdecide] at hrow
  obtain ⟨⟨notes', scan, db'⟩, hstep, rfl, rfl, h'⟩ := hrow.apply
  obtain ⟨found, hfound, t', ht', hcontents, hdispatch⟩ := ends_dispatch hschema ht.populated hharmless
    (ht.lookup_contents he) h'
  have hreadable : t'.Readable plan.target.schema index := ⟨ht.wellFormed, ht.basic, ht.secondary, ht'⟩
  rw [hcarry] at hfound hcontents
  have hahead'' := ahead_carryOut ht hreadable he hharmless (by rw [hcontents]; exact hcarry)
  refine ⟨t', progress', hreadable, OrderedMap.remaining_ahead hreadable.ascending (hahead''.trans hrest), hahead',
    hcontents, ?_⟩
  refine Ends.bind (Ends.of_apply hstep (Q := (· = (_, ⟨plan, progress'⟩, db'))) rfl) fun s hs => ?_
  subst hs
  refine Ends.bind_state (Ends.bind (Ends.below (Ends.outcome (Ends.below hdispatch))) fun s hs => ?_)
  obtain ⟨notes', scan, db''⟩ := s
  obtain ⟨rfl, rfl, h''⟩ := hs
  cases found with
  | ok hit =>
    cases hfound
    exact Ends.pure ⟨rfl, rfl, h''⟩
  | error e =>
    cases hfound
    refine Ends.bind (Ends.below (Ends.outcome (ends_closeScan hahead' h''))) fun s hs => ?_
    exact Ends.fail ⟨hs.1, hs.2.1, hs.2.2⟩

/-! ## To the end -/

/-- **The rows that are left are visited** as the reference says, and the scan is then closed. -/
theorem ends_drain (hschema : plan.target.schema.Keyed) : ∀ {limit : Nat} {l : List (Key × List Cell)}
    {progress : Progress Cursor} (notes : ρ) {db : Database} {t : Table} {rows : List (List Cell)},
    t.Readable plan.target.schema index → plan.keep (l.map (·.2)) = rows → rows.length ≤ limit →
      (t.view index).Remaining plan.direction l → Progress.Ahead plan txn.id index l progress →
      Sweep.Harmless plan.target.schema index plan.direction decide rows notes t.contents →
      db.Has txn.id plan.target.schema.name t →
      ∃ t' : Table, t'.contents = (Sweep.reference plan.target.schema decide rows notes t.contents).2.2 ∧
        Ends (Sweep.drain engine txn decide limit) (notes, ⟨plan, progress⟩, db)
          (Sweep.reference plan.target.schema decide rows notes t.contents).1
          fun s => s.1 = (Sweep.reference plan.target.schema decide rows notes t.contents).2.1 ∧
            s.2.1 = ⟨plan, .closed⟩ ∧ s.2.2.Has txn.id plan.target.schema.name t' := by
  intro limit
  -- as for reading alone, but the table changes as well: what carries over is what is ahead of the row
  induction limit with
  | zero =>
    intro l progress notes db t rows ht hrows hlimit hremaining hahead hharmless h
    cases List.length_eq_zero_iff.1 (Nat.le_zero.1 hlimit)
    rw [hahead.eq_closed (Plan.next?_of_keep_eq_nil hrows)]
    exact ⟨t, rfl, Ends.pure ⟨rfl, rfl, h⟩⟩
  | succ limit ih =>
    intro l progress notes db t rows ht hrows hlimit hremaining hahead hharmless h
    rw [Plan.keep_eq] at hrows
    cases hnext : plan.next? l with
    | none =>
      rw [hnext] at hrows
      subst hrows
      refine ⟨t, rfl, Ends.bind (ends_visit_none hahead hnext notes db) fun s hs => ?_⟩
      subst hs
      exact Ends.pure ⟨rfl, rfl, h⟩
    | some x =>
      obtain ⟨e, rest⟩ := x
      rw [hnext] at hrows
      subst hrows
      cases hdecide : decide (plan.target.schema.rowOf e.2) notes with
      | mk mutation notes' =>
        cases hcarry : mutation.carryOut plan.target.schema (project plan.target.schema.primary.columns e.2)
            t.contents with
        | mk r m =>
          unfold Sweep.Harmless at hharmless
          rw [hdecide] at hharmless
          dsimp only at hharmless
          obtain ⟨hthis, hothers⟩ := hharmless
          obtain ⟨t', progress', ht', hremaining', hahead', rfl, hvisit⟩ :=
            ends_visit_some hschema ht hahead hnext hremaining hdecide hthis hcarry h
          cases r with
          | error status =>
            rw [Sweep.reference_cons_error hdecide hcarry]
            exact ⟨t', rfl, Ends.bind_error hvisit⟩
          | ok done =>
            rw [Sweep.reference_cons_ok hdecide hcarry]
            obtain ⟨⟨notes'', scan, db'⟩, hstep, rfl, rfl, h'⟩ := hvisit.apply
            obtain ⟨t'', hcontents, hrest⟩ := ih _ ht' rfl (Nat.le_of_succ_le_succ hlimit) hremaining' hahead'
              (hothers _ hcarry) h'
            refine ⟨t'', hcontents, Ends.bind (Ends.of_apply hstep (Q := (· = (_, _, db'))) rfl) fun s hs => ?_⟩
            subst hs
            exact hrest.map

/-- **A sweep of a plan ends as the reference says**, in a transaction that sees the table. -/
theorem follows (hschema : plan.target.schema.Keyed) (ht : t.Readable plan.target.schema index)
    (hindex : plan.target.secondaryIndex = .ok index)
    (hkey : (plan.target.keyColumns >>= fun columns => encodeLeading columns plan.keyRow) = .ok key)
    {rows : List (List Cell)} (hrows : plan.visited index key t.rows.values = rows)
    (hharmless : Sweep.Harmless plan.target.schema index plan.direction decide rows notes t.contents)
    {limit : Nat} (hlimit : rows.length ≤ limit) (h : db.Sees txn.id plan.target.schema.name t) :
    Sweep.Follows txn plan decide limit notes db
      (Sweep.reference plan.target.schema decide rows notes t.contents) := by
  obtain ⟨progress, hahead, hopen⟩ := ends_open ht hindex hkey true h
  obtain ⟨db', hdb', h'⟩ := hopen.apply
  have hremaining := (ht.remaining_walk hindex hkey).2
  obtain ⟨t', hcontents, hdrain⟩ := ends_drain hschema notes ht
    ((keep_walk ht.populated index key).trans hrows) hlimit hremaining hahead hharmless h'
  refine ⟨⟨plan, progress⟩, db', t', hdb', hcontents, ?_⟩
  generalize Sweep.reference plan.target.schema decide rows notes t.contents = reference at hdrain ⊢
  obtain ⟨r, notes', m⟩ := reference
  cases r with
  | error e =>
    refine Ends.bind_error (hdrain.mono fun s hs => ?_)
    obtain ⟨notes'', scan, db''⟩ := s
    obtain ⟨rfl, rfl, h''⟩ := hs
    exact ⟨rfl, rfl, h''.sees⟩
  | ok mutations =>
    refine Ends.bind hdrain fun s hs => ?_
    obtain ⟨notes'', scan, db''⟩ := s
    obtain ⟨rfl, rfl, h''⟩ := hs
    exact ⟨rfl, rfl, rfl, h''.sees⟩

namespace Database

/-- **A sweep is not disturbed by its own mutations.**  If each mutation is one of the visited row itself and puts no entry
beyond the row's own in the index that is walked, then the rows visited are those that a scan of the table as it was at the
opening hands out, with the contents that they had.  The first mutation that fails ends the sweep with its error, and those
before it stay; if none fails, each row that was visited is replaced or taken out as told, and the others are as before. -/
theorem sweeps_undisturbed {d : Declaration} (hbuild : d.build = .ok plan.target.schema)
    (hbasic : plan.target.schema.IsBasic) (hnotNull : ∀ c ∈ plan.target.schema.primary.columns, c.isNotNull = true)
    {calls : List Call} (hcalls : ∀ call ∈ calls, call.Respects plan.target.schema)
    (ht : (run calls).Sees txn.id plan.target.schema.name t) (hindex : plan.target.secondaryIndex = .ok index)
    (hkey : (plan.target.keyColumns >>= fun columns => encodeLeading columns plan.keyRow) = .ok key)
    {rows : List (List Cell)} (hrows : plan.visited index key t.rows.values = rows)
    (hharmless : Sweep.Harmless plan.target.schema index plan.direction decide rows notes t.contents)
    {limit : Nat} (hlimit : rows.length ≤ limit) :
    Scan.HandsOut txn plan (rows.map plan.target.schema.rowOf) (run calls) t ∧
      Sweep.Follows txn plan decide limit notes (run calls)
        (Sweep.reference plan.target.schema decide rows notes t.contents) ∧
      ∀ mutations, (Sweep.reference plan.target.schema decide rows notes t.contents).1 = .ok mutations →
        Sweep.Leaves plan.target.schema rows mutations t.contents
          (Sweep.reference plan.target.schema decide rows notes t.contents).2.2 := by
  have hschema := TableSchema.wellFormed_of_build hbuild
  have hpopulated := populated_of_sees hschema hbasic hcalls ht
  have hreadable : t.Readable plan.target.schema index :=
    ⟨hschema, hbasic, Target.mem_secondary hindex, hpopulated⟩
  obtain ⟨l, hperm, hsublist⟩ := plan.exists_perm_visited index key t.rows.values
  rw [hrows] at hsublist
  obtain ⟨hnodup, hlookup⟩ := hpopulated.visited hperm hsublist
  refine ⟨?_, follows ⟨hschema, hbasic, hnotNull⟩ hreadable hindex hkey hrows hharmless hlimit ht,
    fun mutations => Sweep.leaves_reference hschema hharmless hnodup hlookup⟩
  rw [← hrows]
  exact handsOut hreadable hindex hkey ht

/-- By address, from one on. -/
def byMail : Plan where
  target := ⟨people, some "mails"⟩
  keyRow := ⟨[("mail", .text "b")]⟩

/-- The second person is taken out, and the first one moves behind the sweep. -/
def regroup (row : Row) (seen : List Row) : Mutation × List Row :=
  (if row.value "id" = .int 2 then .delete (person 2 "") else .upsert (person 1 "abe"), seen ++ [row])

theorem harmless_regroup : Sweep.Harmless people (some ⟨"mails", [⟨"mail", .varchar, 20, [], 1⟩], false, true⟩) .asc
    regroup [[.int 2, .text "bob"], [.int 1, .text "eve"]] [] crowd.contents := by
  refine ⟨?_, fun m hm => ⟨?_, fun m' hm' => True.intro⟩⟩
  · show encodeColumns people.primary.columns (person 2 "") = _
    cbv
  · refine ⟨?_, fun cells hcells => ?_⟩
    · show encodeColumns people.primary.columns (person 1 "abe") = _
      cbv
    · have hrow : people.encodeRow (person 1 "abe") = .ok [.int 1, .text "abe"] := by cbv
      have hcells : people.encodeRow (person 1 "abe") = .ok cells := hcells
      rw [hrow] at hcells
      cases hcells
      have horder : Key.order [.text "eve", .int 1] [.text "abe", .int 1] = .gt := by cbv
      intro hbeyond
      have hbeyond : Key.order [.text "eve", .int 1] [.text "abe", .int 1] = .lt := hbeyond
      rw [horder] at hbeyond
      cases hbeyond

/-- The one who has moved behind the sweep is not met again, and the one who was not visited stays. -/
theorem sweeps_undisturbed_crowd :
    Sweep.Follows ⟨1, .readCommitted⟩ byMail regroup 2 [] (run crowdCalls)
        (Sweep.reference people regroup [[.int 2, .text "bob"], [.int 1, .text "eve"]] [] crowd.contents) ∧
      Sweep.Leaves people [[.int 2, .text "bob"], [.int 1, .text "eve"]]
        [.delete (person 2 ""), .upsert (person 1 "abe")] crowd.contents
        (Sweep.reference people regroup [[.int 2, .text "bob"], [.int 1, .text "eve"]] [] crowd.contents).2.2 := by
  have hvisited : byMail.visited (some ⟨"mails", [⟨"mail", .varchar, 20, [], 1⟩], false, true⟩) [.text "b"]
      crowd.rows.values = [[.int 2, .text "bob"], [.int 1, .text "eve"]] := by cbv
  have hsees : (run crowdCalls).Sees (Transaction.mk 1 .readCommitted).id people.name crowd := sees_crowd
  obtain ⟨-, hfollows, hleaves⟩ := sweeps_undisturbed build_people (by decide) (by decide) respects_crowdCalls hsees rfl
    (by cbv) hvisited harmless_regroup (Nat.le_refl 2)
  exact ⟨hfollows, hleaves _ (by cbv)⟩

end Database

end Memory
end RowStore

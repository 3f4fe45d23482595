import RowStore.Proofs.ScanSteps
import RowStore.Scan.Sweep

/-!
# What a sweep is to do

The reference for sweeps.  Row by row, a mutation is decided on and carried out on the finite map of the table's contents,
up to the first that fails (`Sweep.reference`).  A mutation is harmless to the walk if it is one of the visited row itself
and puts no entry beyond the row's own in the index that is walked (`Mutation.Harmless`).  What is ahead of the row's entry
is then the same as before (`ahead_congr`).
-/
namespace RowStore

open Memory (Contents Table project entryColumns)

namespace Mutation

/-- What becomes of the row with a primary key: it stays, is replaced, or is taken out. -/
def carryOut (schema : TableSchema) (key : Key) (m : Contents) : Mutation → Except Error Unit × Contents
  | noOp => (.ok (), m)
  | upsert row =>
    match schema.encodeRow row with
    | .error e => (.error e, m)
    | .ok cells => m.exchange schema cells
  | delete _ => (.ok (), m.erase key)

/-- A mutation of a visited row that has the row's primary key and puts no entry beyond the row's own. -/
def Harmless (schema : TableSchema) (index : Option Index) (direction : Direction) (visited : List Cell) : Mutation → Prop
  | noOp => True
  | upsert row => encodeColumns schema.primary.columns row = .ok (project schema.primary.columns visited) ∧
      ∀ cells, schema.encodeRow row = .ok cells → ¬OrderedMap.Beyond direction
        (project (entryColumns schema index) visited) (project (entryColumns schema index) cells)
  | delete row => encodeColumns schema.primary.columns row = .ok (project schema.primary.columns visited)

end Mutation

namespace Sweep

variable {ρ : Type}

/-- **What a sweep of some rows is to do**: the mutations, the notes, and the contents that are left. -/
def reference (schema : TableSchema) (decide : Row → ρ → Mutation × ρ) :
    List (List Cell) → ρ → Contents → Except Error (List Mutation) × ρ × Contents
  | [], notes, m => (.ok [], notes, m)
  | visited :: rest, notes, m =>
    let (mutation, notes) := decide (schema.rowOf visited) notes
    match mutation.carryOut schema (project schema.primary.columns visited) m with
    | (.error e, m) => (.error e, notes, m)
    | (.ok (), m) =>
      let (mutations, notes, m) := reference schema decide rest notes m
      (mutations.map (mutation :: ·), notes, m)

section

variable {schema : TableSchema} {decide : Row → ρ → Mutation × ρ} {visited : List Cell} {notes notes' : ρ} {m m' : Contents}
  {mutation : Mutation} (hdecide : decide (schema.rowOf visited) notes = (mutation, notes'))
include hdecide

theorem reference_cons_ok (hcarry : mutation.carryOut schema (project schema.primary.columns visited) m = (.ok (), m'))
    (rest : List (List Cell)) : reference schema decide (visited :: rest) notes m =
      ((reference schema decide rest notes' m').1.map (mutation :: ·), (reference schema decide rest notes' m').2) := by
  show (match (decide (schema.rowOf visited) notes).1.carryOut schema _ m with
    | (.error e, m) => _
    | (.ok (), m) => _) = _
  rw [hdecide, hcarry]

theorem reference_cons_error {e : Error}
    (hcarry : mutation.carryOut schema (project schema.primary.columns visited) m = (.error e, m'))
    (rest : List (List Cell)) : reference schema decide (visited :: rest) notes m = (.error e, notes', m') := by
  show (match (decide (schema.rowOf visited) notes).1.carryOut schema _ m with
    | (.error e, m) => _
    | (.ok (), m) => _) = _
  rw [hdecide, hcarry]

end

/-- Each row that is visited is mutated harmlessly. -/
def Harmless (schema : TableSchema) (index : Option Index) (direction : Direction) (decide : Row → ρ → Mutation × ρ) :
    List (List Cell) → ρ → Contents → Prop
  | [], _, _ => True
  | visited :: rest, notes, m =>
    (decide (schema.rowOf visited) notes).1.Harmless schema index direction visited ∧
      ∀ m', (decide (schema.rowOf visited) notes).1.carryOut schema (project schema.primary.columns visited) m =
        (.ok (), m') → Harmless schema index direction decide rest (decide (schema.rowOf visited) notes).2 m'

end Sweep

/-! ## What a mutation changes -/

namespace Mutation

variable {schema : TableSchema} {index : Option Index} {direction : Direction} {visited : List Cell} {m m' : Contents}
  {mutation : Mutation} {key : Key}

/-- What is left of a visited row. -/
def leaves (schema : TableSchema) (visited : List Cell) : Mutation → Option (List Cell)
  | noOp => some visited
  | upsert row => (schema.encodeRow row).toOption
  | delete _ => none

theorem carryOut_of_error {e : Error} (h : mutation.carryOut schema key m = (.error e, m')) : m' = m := by
  cases mutation with
  | noOp => cases h
  | delete row => cases h
  | upsert row =>
    unfold carryOut Contents.exchange at h
    dsimp only at h
    split at h
    · cases h
      rfl
    · split at h
      · cases h
        rfl
      · cases h

theorem exchange_of_ok {row : Row} (h : (upsert row).carryOut schema key m = (.ok (), m')) :
    ∃ cells, schema.encodeRow row = .ok cells ∧ m' = m.insert (project schema.primary.columns cells) cells := by
  unfold carryOut Contents.exchange at h
  dsimp only at h
  split at h
  · cases h
  · rename_i cells hrow
    split at h
    · cases h
    · cases h
      exact ⟨cells, hrow, rfl⟩

theorem Harmless.project_eq {row : Row} {cells : List Cell} (hschema : schema.WellFormed)
    (h : (upsert row).Harmless schema index direction visited) (hrow : schema.encodeRow row = .ok cells) :
    project schema.primary.columns cells = project schema.primary.columns visited := by
  have hkey := h.1
  rw [encodeColumns_eq hschema hrow hschema.primary] at hkey
  exact Except.ok.inj hkey

/-- **What is left of the visited row.** -/
theorem lookup_carryOut_self (hschema : schema.WellFormed) (hharmless : mutation.Harmless schema index direction visited)
    (hvisited : m.lookup (project schema.primary.columns visited) = some visited)
    (h : mutation.carryOut schema (project schema.primary.columns visited) m = (.ok (), m')) :
    m'.lookup (project schema.primary.columns visited) = mutation.leaves schema visited := by
  cases mutation with
  | noOp =>
    cases h
    exact hvisited
  | delete row =>
    cases h
    exact Finmap.lookup_erase _ m
  | upsert row =>
    obtain ⟨cells, hrow, rfl⟩ := exchange_of_ok h
    rw [← hharmless.project_eq hschema hrow, Finmap.lookup_insert]
    unfold leaves
    dsimp only
    rw [hrow]
    rfl

/-- **Only the visited row changes.** -/
theorem lookup_carryOut_of_ne (hschema : schema.WellFormed) (hharmless : mutation.Harmless schema index direction visited)
    {r : Except Error Unit} (h : mutation.carryOut schema (project schema.primary.columns visited) m = (r, m')) {k : Key}
    (hk : k ≠ project schema.primary.columns visited) : m'.lookup k = m.lookup k := by
  cases r with
  | error e => rw [carryOut_of_error h]
  | ok done =>
    cases mutation with
    | noOp =>
      cases h
      rfl
    | delete row =>
      cases h
      exact Finmap.lookup_erase_ne hk
    | upsert row =>
      obtain ⟨cells, hrow, rfl⟩ := exchange_of_ok h
      exact Finmap.lookup_insert_of_ne _ fun heq => hk (heq.trans (hharmless.project_eq hschema hrow))

theorem not_beyond_carryOut (hschema : schema.WellFormed) (hharmless : mutation.Harmless schema index direction visited)
    (hvisited : m.lookup (project schema.primary.columns visited) = some visited) {r : Except Error Unit}
    (h : mutation.carryOut schema (project schema.primary.columns visited) m = (r, m')) {stored : List Cell}
    (hstored : m'.lookup (project schema.primary.columns visited) = some stored) :
    ¬OrderedMap.Beyond direction (project (entryColumns schema index) visited)
      (project (entryColumns schema index) stored) := by
  cases r with
  | error e =>
    rw [carryOut_of_error h, hvisited] at hstored
    cases hstored
    exact OrderedMap.not_beyond_self _ _
  | ok done =>
    rw [lookup_carryOut_self hschema hharmless hvisited h] at hstored
    cases mutation with
    | noOp =>
      cases hstored
      exact OrderedMap.not_beyond_self _ _
    | delete row => cases hstored
    | upsert row =>
      obtain ⟨cells, hrow, -⟩ := exchange_of_ok h
      unfold leaves at hstored
      dsimp only at hstored
      rw [hrow] at hstored
      cases hstored
      exact hharmless.2 _ hrow

end Mutation

/-- What was not visited is as it was, and of each visited row there is what its mutation leaves. -/
structure Sweep.Leaves (schema : TableSchema) (rows : List (List Cell)) (mutations : List Mutation) (m m' : Contents) :
    Prop where
  others : ∀ k, k ∉ rows.map (project schema.primary.columns) → m'.lookup k = m.lookup k
  visited : List.Forall₂ (fun row mutation => m'.lookup (project schema.primary.columns row) =
    mutation.leaves schema row) rows mutations

/-- **What is left of a sweep in which no mutation has failed.** -/
theorem Sweep.leaves_reference {ρ : Type} {schema : TableSchema} {index : Option Index} {direction : Direction}
    {decide : Row → ρ → Mutation × ρ} (hschema : schema.WellFormed) : ∀ {rows : List (List Cell)} {notes : ρ}
    {m : Contents} {mutations : List Mutation}, Sweep.Harmless schema index direction decide rows notes m →
      (rows.map (project schema.primary.columns)).Nodup →
      (∀ row ∈ rows, m.lookup (project schema.primary.columns row) = some row) →
      (reference schema decide rows notes m).1 = .ok mutations →
      Sweep.Leaves schema rows mutations m (reference schema decide rows notes m).2.2
  | [], notes, m, mutations, _, _, _, hok => by
    cases hok
    exact ⟨fun _ _ => rfl, List.Forall₂.nil⟩
  | visited :: rest, notes, m, mutations, hharmless, hdistinct, hrows, hok => by
    cases hdecide : decide (schema.rowOf visited) notes with
    | mk mutation notes' =>
      cases hcarry : mutation.carryOut schema (project schema.primary.columns visited) m with
      | mk r m' =>
        unfold Sweep.Harmless at hharmless
        rw [hdecide] at hharmless
        dsimp only at hharmless
        obtain ⟨hthis, hothers⟩ := hharmless
        rw [List.map_cons, List.nodup_cons] at hdistinct
        cases r with
        | error e =>
          rw [reference_cons_error hdecide hcarry] at hok
          cases hok
        | ok done =>
          rw [reference_cons_ok hdecide hcarry] at hok ⊢
          obtain ⟨mutations', hmutations, rfl⟩ := map_ok_iff.1 hok
          have hother := fun k => Mutation.lookup_carryOut_of_ne (k := k) hschema hthis hcarry
          have hrows' : ∀ row ∈ rest, m'.lookup (project schema.primary.columns row) = some row := by
            intro row hrow
            rw [hother _ fun heq => hdistinct.1 (heq ▸ List.mem_map_of_mem hrow)]
            exact hrows row (List.mem_cons_of_mem _ hrow)
          obtain ⟨hunvisited, hleft⟩ := leaves_reference hschema (hothers _ hcarry) hdistinct.2 hrows' hmutations
          refine ⟨fun k hk => ?_, List.Forall₂.cons ?_ hleft⟩
          · rw [List.map_cons, List.mem_cons, not_or] at hk
            exact (hunvisited k hk.2).trans (hother k hk.1)
          · exact (hunvisited _ hdistinct.1).trans (Mutation.lookup_carryOut_self hschema hthis
              (hrows visited List.mem_cons_self) hcarry)

/-! ## What is ahead of the row -/

namespace Memory

variable {schema : TableSchema} {index : Option Index} {direction : Direction} {t t' : Table} {place key : Key}

theorem Table.Readable.lookup_contents (ht : t.Readable schema index) {e : Key × List Cell}
    (he : e ∈ (t.view index).entries) : t.contents.lookup (project schema.primary.columns e.2) = some e.2 := by
  obtain ⟨-, r, hr, hcells⟩ := (Table.mem_view ht.consistent ht.indexed).1 he
  rw [← hcells, ← ht.populated.keyed hr]
  exact (Table.lookup_contents ht.populated.ascending).2 hr

theorem Table.Populated.visited (ht : t.Populated schema) {l rows : List (List Cell)} (hperm : l.Perm t.rows.values)
    (hrows : rows.Sublist l) : (rows.map (project schema.primary.columns)).Nodup ∧
      ∀ row ∈ rows, t.contents.lookup (project schema.primary.columns row) = some row := by
  have hkeys : t.rows.values.map (project schema.primary.columns) = t.rows.keys := by
    unfold OrderedMap.values OrderedMap.keys
    rw [List.map_map]
    exact List.map_congr_left fun r hr => (ht.keyed hr).symm
  have hnodup : t.rows.keys.Nodup := by
    refine List.pairwise_map.2 (List.Pairwise.imp (fun {a b} hlt heq => ?_) ht.ascending)
    rw [heq, show compare b.1 b.1 = .eq from Std.ReflCmp.compare_self] at hlt
    cases hlt
  refine ⟨(hrows.map _).nodup ((hperm.map _).nodup_iff.2 (hkeys ▸ hnodup)), fun row hrow => ?_⟩
  obtain ⟨r, hr, rfl⟩ := List.mem_map.1 (hperm.mem_iff.1 (hrows.subset hrow))
  rw [← ht.keyed hr]
  exact (Table.lookup_contents ht.ascending).2 hr

theorem Table.Readable.entry_eq (ht : t.Readable schema index) {e : Key × List Cell} (he : e ∈ (t.view index).entries) :
    e.1 = project (entryColumns schema index) e.2 := by
  rw [← ht.populated.sound.schema]
  exact ((Table.mem_view ht.consistent ht.indexed).1 he).1

/-- A row that is not changed is ahead of the place as before. -/
theorem mem_ahead_of_lookup (ht : t.Readable schema index) (ht' : t'.Readable schema index)
    (hother : ∀ k, k ≠ key → t'.contents.lookup k = t.contents.lookup k)
    (hkey : ∀ stored, t.contents.lookup key = some stored →
      ¬OrderedMap.Beyond direction place (project (entryColumns schema index) stored)) {e : Key × List Cell}
    (he : e ∈ (t.view index).ahead place direction) : e ∈ (t'.view index).ahead place direction := by
  obtain ⟨hentry, hbeyond⟩ := OrderedMap.mem_ahead.1 he
  obtain ⟨hplace, r, hr, hcells⟩ := (Table.mem_view ht.consistent ht.indexed).1 hentry
  rw [ht.populated.sound.schema] at hplace
  have hlookup := (Table.lookup_contents ht.populated.ascending).2 hr
  have hne : r.1 ≠ key := by
    rintro rfl
    refine hkey r.2 hlookup ?_
    rw [hcells, ← hplace]
    exact hbeyond
  rw [← hother r.1 hne, Table.lookup_contents ht'.populated.ascending] at hlookup
  refine OrderedMap.mem_ahead.2 ⟨(Table.mem_view ht'.consistent ht'.indexed).2 ⟨?_, r, hlookup, hcells⟩,
    hbeyond⟩
  rw [ht'.populated.sound.schema]
  exact hplace

/-- **A change of one row leaves what is ahead of a place as it is**, if neither the old nor the new row is ahead of it. -/
theorem ahead_congr (key : Key) (ht : t.Readable schema index) (ht' : t'.Readable schema index)
    (hother : ∀ k, k ≠ key → t'.contents.lookup k = t.contents.lookup k)
    (hold : ∀ stored, t.contents.lookup key = some stored →
      ¬OrderedMap.Beyond direction place (project (entryColumns schema index) stored))
    (hnew : ∀ stored, t'.contents.lookup key = some stored →
      ¬OrderedMap.Beyond direction place (project (entryColumns schema index) stored)) :
    (t'.view index).ahead place direction = (t.view index).ahead place direction :=
  OrderedMap.eq_of_pairwise_beyond (OrderedMap.pairwise_ahead ht'.ascending place direction)
    (OrderedMap.pairwise_ahead ht.ascending place direction) fun _ =>
      ⟨mem_ahead_of_lookup ht' ht (fun k hk => (hother k hk).symm) hnew, mem_ahead_of_lookup ht ht' hother hold⟩

/-- **A harmless mutation leaves what is ahead of the visited row as it is.** -/
theorem ahead_carryOut (ht : t.Readable schema index) (ht' : t'.Readable schema index) {mutation : Mutation}
    {e : Key × List Cell} (he : e ∈ (t.view index).entries) (hharmless : mutation.Harmless schema index direction e.2)
    {r : Except Error Unit}
    (hcarry : mutation.carryOut schema (project schema.primary.columns e.2) t.contents = (r, t'.contents)) :
    (t'.view index).ahead e.1 direction = (t.view index).ahead e.1 direction := by
  have hvisited := ht.lookup_contents he
  rw [ht.entry_eq he]
  -- only the row under the visited key changes, and neither the old one nor the new one is beyond the old entry
  refine ahead_congr (project schema.primary.columns e.2) ht ht' (fun k hk => ?_) (fun stored hstored => ?_)
    fun stored hstored => ?_
  · exact Mutation.lookup_carryOut_of_ne ht.wellFormed hharmless hcarry hk
  · rw [hvisited] at hstored
    cases hstored
    exact OrderedMap.not_beyond_self _ _
  · exact Mutation.not_beyond_carryOut ht.wellFormed hharmless hvisited hcarry hstored

end Memory
end RowStore

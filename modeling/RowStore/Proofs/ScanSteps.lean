import RowStore.Proofs.ByKeyRuns
import RowStore.Proofs.ScanOrder
import RowStore.Scan.Readout

/-!
# What a step of a scan does

A scan in memory is described by the entries that it has before it, the row that has been read ahead included
(`Progress.Ahead`).  Reading ahead goes to the first of them that is handed out (`Plan.next?`) and leaves those behind it
(`ends_readAhead`); where there is none the scan closes.
-/
namespace RowStore

open Memory (Cursor Database Transaction Table engine entryColumns)

/-! ## The next row to hand out -/

namespace Plan

variable {plan : Plan}

/-- The first entry whose row is handed out, and the entries behind it. -/
def next? (plan : Plan) : List (Key × List Cell) → Option ((Key × List Cell) × List (Key × List Cell))
  | [] => none
  | e :: rest =>
    if plan.continues (plan.target.schema.rowOf e.2) then
      if plan.selects (plan.target.schema.rowOf e.2) then some (e, rest) else next? plan rest
    else none

theorem keep_cons (plan : Plan) (cells : List Cell) (rows : List (List Cell)) : plan.keep (cells :: rows) =
    if plan.continues (plan.target.schema.rowOf cells) then
      if plan.selects (plan.target.schema.rowOf cells) then cells :: plan.keep rows else plan.keep rows
    else [] := by
  rw [keep_eq_filter, keep_eq_filter, List.takeWhile_cons]
  cases plan.continues (plan.target.schema.rowOf cells) with
  | false => rfl
  | true =>
    simp only [if_true]
    rw [List.filter_cons]

/-- **The next row is the first one that is kept.** -/
theorem keep_eq : ∀ l : List (Key × List Cell), plan.keep (l.map (·.2)) =
    match plan.next? l with
    | none => []
    | some (e, rest) => e.2 :: plan.keep (rest.map (·.2))
  | [] => List.sublist_nil.1 (plan.keep_sublist [])
  | e :: rest => by
    unfold next?
    rw [List.map_cons, keep_cons]
    by_cases hcontinues : plan.continues (plan.target.schema.rowOf e.2) = true
    · by_cases hselects : plan.selects (plan.target.schema.rowOf e.2) = true
      · rw [if_pos hcontinues, if_pos hselects, if_pos hcontinues, if_pos hselects]
      · rw [if_pos hcontinues, if_neg hselects, if_pos hcontinues, if_neg hselects]
        exact keep_eq rest
    · rw [if_neg hcontinues, if_neg hcontinues]

theorem next?_of_keep_eq_nil {l : List (Key × List Cell)} (h : plan.keep (l.map (·.2)) = []) : plan.next? l = none := by
  rw [keep_eq] at h
  cases hnext : plan.next? l with
  | none => rfl
  | some x =>
    rw [hnext] at h
    cases h

/-- The next entry is before the walk, and what is behind it is what the walk then has before it. -/
theorem ahead_of_next? {m : OrderedMap Key (List Cell)} (hm : m.Ascending) {direction : Direction} {e : Key × List Cell}
    {rest : List (Key × List Cell)} : ∀ {l : List (Key × List Cell)}, m.Remaining direction l →
      plan.next? l = some (e, rest) → e ∈ m.entries ∧ m.ahead e.1 direction = rest
  | [], _, h => by cases h
  | x :: l, hl, h => by
    unfold next? at h
    split at h
    · split at h
      · cases h
        exact hl e rest rfl
      · exact ahead_of_next? hm (hl.tail hm) h
    · cases h

end Plan

/-! ## The cursor that rows are read through -/

/-- A cursor that walks an index of a table with whole rows, and where it rests. -/
structure Memory.Cursor.Walks (c : Cursor) (id : Nat) (schema : TableSchema) (walked : Option Index)
    (place : Option Key) : Prop where
  isOpen : c.closed = false
  transaction : c.transaction = id
  schema : c.schema = schema
  index : c.index = walked
  access : c.clusterAccess = walked.isSome
  position : c.position = place
  positioned : place.isSome = true → c.positioned = true

theorem Memory.Cursor.Walks.readLayout_eq {c : Cursor} {id : Nat} {schema : TableSchema} {index : Option Index}
    {position : Option Key} (h : c.Walks id schema index position) : c.readLayout = .clustered := by
  unfold Cursor.readLayout Cursor.keyLayout
  rw [h.access, h.index]
  cases index <;> rfl

theorem Memory.Cursor.Walks.has_iff {c : Cursor} {id : Nat} {schema : TableSchema} {index : Option Index}
    {position : Option Key} (h : c.Walks id schema index position) {db : Database} {t : Table} :
    db.Has c.transaction c.schema.name t ↔ db.Has id schema.name t := by
  rw [h.transaction, h.schema]

namespace Cursors

variable {σ α : Type}

def active (cursors : Cursors Cursor) : Cursor := cursors.index.getD cursors.table

def withActive (cursors : Cursors Cursor) (c : Cursor) : Cursors Cursor :=
  match cursors.index with
  | some _ => { cursors with index := some c }
  | none => { cursors with table := c }

theorem active_withActive (cursors : Cursors Cursor) (c : Cursor) : (cursors.withActive c).active = c := by
  unfold withActive active
  cases cursors.index <;> rfl

theorem onActive_eq {call : Action (Cursor × σ) α} {cursors : Cursors Cursor} {s s' : σ} {r : Except Error α}
    {c : Cursor} (h : call (cursors.active, s) = (r, (c, s'))) :
    onActive call (cursors, s) = (r, (cursors.withActive c, s')) := by
  unfold onActive withActive
  obtain ⟨table, index⟩ := cursors
  cases index with
  | none =>
    have h : call (table, s) = _ := h
    simp only [h]
  | some i =>
    have h : call (i, s) = _ := h
    simp only [h]

/-- A property that the table cursor and the cursor that rows are read through have. -/
def Both (P : Cursor → Prop) (cursors : Cursors Cursor) : Prop := P cursors.table ∧ P cursors.active

theorem Both.withActive {P : Cursor → Prop} {cursors : Cursors Cursor} (h : cursors.Both P) {c : Cursor} (hc : P c) :
    (cursors.withActive c).Both P := by
  refine ⟨?_, (cursors.active_withActive c).symm ▸ hc⟩
  obtain ⟨table, index⟩ := cursors
  cases index with
  | none => exact hc
  | some i => exact h.1

end Cursors

theorem Holdings.onActive_eq {σ α : Type} {call : Action (Tuple × Cursor × σ) α} {held : Holdings Cursor} {s s' : σ}
    {r : Except Error α} {tuple : Tuple} {c : Cursor}
    (h : call (held.tuple, held.cursors.active, s) = (r, (tuple, c, s'))) :
    onActive call (held, s) = (r, ({ tuple, cursors := held.cursors.withActive c }, s')) := by
  unfold onActive Cursors.withActive
  obtain ⟨tuple', table, index⟩ := held
  cases index with
  | none =>
    have h : call (tuple', table, s) = _ := h
    simp only [h]
  | some i =>
    have h : call (tuple', i, s) = _ := h
    simp only [h]

namespace Memory

open Attempt

variable {id : Nat} {schema : TableSchema} {index : Option Index} {position : Option Key} {t : Table} {db : Database}

/-- A cursor of a transaction on a table. -/
def Cursor.On (id : Nat) (schema : TableSchema) (c : Cursor) : Prop := c.transaction = id ∧ c.schema = schema

theorem Cursor.On.has_release {c : Cursor} (hc : c.On id schema) (h : db.Has id schema.name t) :
    (release (c, db)).1.On id schema ∧ (release (c, db)).2.Has id schema.name t := by
  obtain ⟨rfl, rfl⟩ := hc
  cases hclosed : c.closed with
  | true =>
    unfold release
    dsimp only
    rw [if_pos hclosed]
    exact ⟨⟨rfl, rfl⟩, h⟩
  | false =>
    obtain ⟨hc, h'⟩ := Cursor.has_release hclosed h
    exact ⟨by rw [hc]; exact ⟨rfl, rfl⟩, h'⟩

theorem Cursor.On.has_letGo {c : Cursor} (hc : c.On id schema) (h : db.Has id schema.name t) :
    (letGo c db).Has id schema.name t := (hc.has_release h).2

/-! ## Closing -/

theorem ends_closeCursors {cursors : Cursors Cursor} (hcursors : cursors.Both (Cursor.On id schema))
    (h : db.Has id schema.name t) :
    Ends (Cursors.close engine cursors) db (.ok ()) fun db' => db'.Has id schema.name t := by
  obtain ⟨table, index⟩ := cursors
  obtain ⟨htable, hactive⟩ := hcursors
  cases index with
  | none =>
    obtain ⟨htable', h'⟩ := htable.has_release h
    exact ⟨rfl, htable'.has_letGo h'⟩
  | some c =>
    obtain ⟨hc', h'⟩ := Cursor.On.has_release (c := c) hactive h
    obtain ⟨htable', h''⟩ := htable.has_release h'
    exact ⟨rfl, hc'.has_letGo (htable'.has_letGo h'')⟩

/-- What a running scan holds, and where its cursor rests. -/
structure Holds (held : Holdings Cursor) (id : Nat) (schema : TableSchema) (index : Option Index)
    (position : Option Key) : Prop where
  live : held.tuple.disposed = false
  layout : held.tuple.layout = .clustered
  walks : held.cursors.active.Walks id schema index position
  both : held.cursors.Both (Cursor.On id schema)

theorem ends_closeHoldings {held : Holdings Cursor} (hheld : Holds held id schema index position)
    (h : db.Has id schema.name t) :
    Ends (held.close engine) db (.ok ()) fun db' => db'.Has id schema.name t := by
  have hdispose : Tuple.dispose engine.tupleReleased (held.tuple, db) =
      (.ok (), ({ held.tuple with cells := [], disposed := true }, engine.tupleReleased db)) := by
    rw [Tuple.dispose_apply, if_neg (by rw [hheld.live]; exact Bool.false_ne_true)]
  have hclose := ends_closeCursors hheld.both (h.ledger db.ledger.tupleDisposed)
  obtain ⟨db', hdb', h'⟩ := hclose.apply
  refine Ends.of_apply (u := db') ?_ h'
  unfold Holdings.close
  rw [hdispose]
  dsimp only
  rw [show Cursors.close engine held.cursors (engine.tupleReleased db) = _ from hdb']
  rfl

/-! ## Reading ahead -/

/-- What scanning needs of a schema, the index that is walked, and the table. -/
structure Table.Readable (schema : TableSchema) (index : Option Index) (t : Table) : Prop where
  wellFormed : schema.WellFormed
  basic : schema.IsBasic
  secondary : ∀ i ∈ index, i ∈ schema.secondary
  populated : t.Populated schema

theorem Table.Readable.consistent (h : t.Readable schema index) : t.Consistent := h.populated.sound.consistent

theorem Table.Readable.indexed (h : t.Readable schema index) : ∀ i ∈ index, i ∈ t.schema.secondary :=
  h.populated.sound.schema ▸ h.secondary

theorem Table.Readable.ascending (h : t.Readable schema index) : (t.view index).Ascending :=
  ascending_view h.consistent h.indexed

/-- A cursor that walks an index of a table, a tuple to read into, and the table. -/
structure Walking (id : Nat) (schema : TableSchema) (walked : Option Index) (place : Option Key) (t : Table)
    (s : Tuple × Cursor × Database) : Prop where
  live : s.1.disposed = false
  layout : s.1.layout = .clustered
  walks : s.2.1.Walks id schema walked place
  has : s.2.2.Has id schema.name t

theorem Table.Readable.stores (h : t.Readable schema index) {e : Key × List Cell} (he : e ∈ (t.view index).entries) :
    StoresRow schema.columns e.2 := by
  obtain ⟨-, r, hr, hcells⟩ := (Table.mem_view h.consistent h.indexed).1 he
  exact hcells ▸ h.populated.stores r hr

namespace Walking

variable {s : Tuple × Cursor × Database} {entries : Cursor.Entries} {key : Key}

theorem hasNext (h : Walking id schema index position t s) :
    (engine.isPositioned s.2 && engine.hasNext s.2) = position.isSome := by
  show ((!s.2.1.closed && s.2.1.positioned) && (!s.2.1.closed && s.2.1.position.isSome)) = _
  rw [h.walks.isOpen, h.walks.position]
  cases hposition : position with
  | none => simp
  | some key => simp [h.walks.positioned (by rw [hposition]; rfl)]

theorem ends_readRow (h : Walking id schema index (some key) t s) (hentries : Cursor.entriesOf t index = .ok entries)
    {cells : List Cell} (hread : entries.read? t index.isSome key = some cells) :
    Ends engine.readRow s (.ok ()) fun s' => s'.1.cells = cells ∧ Walking id schema index (some key) t s' := by
  obtain ⟨tuple, c, db⟩ := s
  have hwalks : c.Walks id schema index (some key) := h.walks
  have hread' : Ends engine.readRow (tuple, c, db) (.ok ()) (Cursor.Held { tuple with cells } c t) :=
    Cursor.ends_readRow hwalks.isOpen h.live (h.layout.trans hwalks.readLayout_eq.symm) hwalks.position
      (hwalks.index ▸ hentries) (hwalks.access ▸ hread) (hwalks.has_iff.2 h.has)
  refine hread'.mono fun s hs => ?_
  obtain ⟨tuple', c', db'⟩ := s
  obtain ⟨rfl, rfl, h'⟩ := hs
  exact ⟨rfl, h.live, h.layout, hwalks, hwalks.has_iff.1 h'⟩

theorem ends_readRow_gone (h : Walking id schema index (some key) t s)
    (hentries : Cursor.entriesOf t index = .ok entries) (hgone : entries.read? t index.isSome key = none) :
    Ends engine.readRow s (.error (.engine .recordNotFound)) (Walking id schema index (some key) t) := by
  obtain ⟨tuple, c, db⟩ := s
  have hwalks : c.Walks id schema index (some key) := h.walks
  have hread : Ends engine.readRow (tuple, c, db) (.error (.engine .recordNotFound)) (Cursor.Held tuple c t) :=
    Cursor.ends_readRow_gone hwalks.isOpen (h.layout.trans hwalks.readLayout_eq.symm) hwalks.position
      (hwalks.index ▸ hentries) (hwalks.access ▸ hgone) (hwalks.has_iff.2 h.has)
  refine hread.mono fun s hs => ?_
  obtain ⟨tuple', c', db'⟩ := s
  obtain ⟨rfl, rfl, h'⟩ := hs
  exact ⟨h.live, h.layout, hwalks, hwalks.has_iff.1 h'⟩

theorem ends_clear (h : Walking id schema index position t s) :
    Ends Tuple.clear s (.ok ()) (Walking id schema index position t) := by
  obtain ⟨tuple, c, db⟩ := s
  refine Ends.of_apply (u := ({ tuple with cells := [] }, c, db)) ?_ ⟨h.live, h.layout, h.walks, h.has⟩
  unfold Tuple.clear
  rw [Tuple.setValues_apply, if_neg (by rw [h.live]; exact Bool.false_ne_true)]

theorem ends_advance (h : Walking id schema index (some key) t s) (direction : Direction)
    (hentries : Cursor.entriesOf t index = .ok entries) :
    Ends (below (engine.advance direction)) s (.ok ()) (Walking id schema index (entries.step key direction) t) := by
  obtain ⟨tuple, c, db⟩ := s
  have hwalks : c.Walks id schema index (some key) := h.walks
  have hadvance : Ends (engine.advance direction) (c, db) (.ok ())
      (Cursor.At { c with position := entries.step key direction } t) :=
    Cursor.ends_advance hwalks.isOpen hwalks.position direction (hwalks.index ▸ hentries) (hwalks.has_iff.2 h.has)
  refine (Ends.below hadvance).mono fun s hs => ?_
  obtain ⟨tuple', c', db'⟩ := s
  obtain ⟨rfl, rfl, h'⟩ := hs
  have hplaced : Cursor.Walks { c with position := entries.step key direction } id schema index
      (entries.step key direction) := { hwalks with position := rfl, positioned := fun _ => hwalks.positioned rfl }
  exact ⟨h.live, h.layout, hplaced, hplaced.has_iff.1 h'⟩

end Walking

variable {plan : Plan}

/-- **Reading on goes to the next entry whose row is handed out**, and leaves the cursor behind it. -/
theorem ends_readOn (ht : t.Readable plan.target.schema index) : ∀ {fuel : Nat} {l : List (Key × List Cell)}
    {s : Tuple × Cursor × Database}, l.length ≤ fuel → (t.view index).Remaining plan.direction l →
      Walking id plan.target.schema index (l.head?.map (·.1)) t s →
      Ends (Scan.readOn engine plan fuel) s (.ok ((plan.next? l).map fun x => plan.target.schema.rowOf x.1.2)) fun s' =>
        ∃ place, Walking id plan.target.schema index place t s' ∧
          ∀ e rest, plan.next? l = some (e, rest) → place = rest.head?.map (·.1)
  | 0, [], s, _, _, h => Ends.pure ⟨_, h, fun e rest hnext => by cases hnext⟩
  | 0, e :: l, s, hfuel, _, h => absurd hfuel (by simp)
  | fuel + 1, [], s, _, _, h => by
    refine Ends.bind_state ?_
    dsimp only
    rw [h.hasNext, if_pos (by rfl)]
    exact Ends.pure ⟨_, h, fun e rest hnext => by cases hnext⟩
  | fuel + 1, e :: rest, s, hfuel, hremaining, h => by
    obtain ⟨tuple, c, db⟩ := s
    obtain ⟨he, -⟩ := hremaining e rest rfl
    obtain ⟨entries, hentries⟩ := Table.exists_entriesOf ht.consistent ht.indexed
    have hread := Table.read?_view ht.consistent ht.indexed hentries he
    have hstep := (Table.step_view ht.consistent ht.indexed hentries e.1 plan.direction).trans
      hremaining.step
    have hdecode : ∀ {s : Tuple × Cursor × Database}, s.1.cells = e.2 ∧
        Walking id plan.target.schema index (some e.1) t s →
        plan.target.schema.decodeRow s.1 = .ok (plan.target.schema.rowOf e.2) := fun hs =>
      decodeRow_of_stores ht.basic ht.wellFormed hs.2.live hs.1 (ht.stores he)
    refine Ends.bind_state ?_
    dsimp only
    rw [h.hasNext, if_neg (by simp)]
    refine Ends.bind (h.ends_readRow hentries hread) fun s hs => ?_
    refine Ends.bind_held (Ends.bind_ofExcept (hdecode hs) ?_)
    refine Ends.bind hs.2.ends_clear fun s hs => ?_
    unfold Plan.next?
    cases hcontinues : plan.continues (plan.target.schema.rowOf e.2) with
    | false =>
      rw [if_pos (by rfl)]
      exact Ends.pure ⟨_, hs, fun e rest hnext => by cases hnext⟩
    | true =>
      rw [if_neg (by simp)]
      refine Ends.bind (hs.ends_advance plan.direction hentries) fun s hs => ?_
      rw [hstep] at hs
      cases hselects : plan.selects (plan.target.schema.rowOf e.2) with
      | true => exact Ends.pure ⟨_, hs, fun e rest hnext => by cases hnext; rfl⟩
      | false => exact ends_readOn ht (Nat.le_of_succ_le_succ hfuel) (hremaining.tail ht.ascending) hs

/-- **The bound of a scan is the number of entries.** -/
theorem entryBound_eq (ht : t.Readable schema index) {c : Cursor} (hwalks : c.Walks id schema index position)
    (h : db.Has id schema.name t) : engine.entryBound (c, db) = (t.view index).size := by
  obtain ⟨copy, hcopy, htable⟩ := Option.map_eq_some_iff.1 (hwalks.has_iff.2 h).copied
  obtain ⟨entries, hentries⟩ := Table.exists_entriesOf ht.consistent ht.indexed
  show c.entryBound db = _
  unfold Cursor.entryBound
  rw [hcopy, Option.bind_some, htable, hwalks.index, hentries]
  exact Table.size_view ht.consistent ht.indexed hentries

/-- A scan that has some entries before it: the next row of them has been read, or there is none and it is closed. -/
def Progress.Ahead (plan : Plan) (id : Nat) (index : Option Index) (l : List (Key × List Cell)) : Progress Cursor → Prop
  | .running held row => ∃ e rest, plan.next? l = some (e, rest) ∧ row = plan.target.schema.rowOf e.2 ∧
      Holds held id plan.target.schema index (rest.head?.map (·.1))
  | .closed => plan.next? l = none

/-- **Reading ahead** takes the next row that is handed out, or closes the scan. -/
theorem ends_readAhead (ht : t.Readable plan.target.schema index) {l : List (Key × List Cell)} {held : Holdings Cursor}
    (hremaining : (t.view index).Remaining plan.direction l)
    (hheld : Holds held id plan.target.schema index (l.head?.map (·.1))) (h : db.Has id plan.target.schema.name t) :
    ∃ progress, Progress.Ahead plan id index l progress ∧
      Ends (Scan.readAhead engine plan held) db (.ok progress) fun db' => db'.Has id plan.target.schema.name t := by
  have hfuel : l.length ≤ engine.entryBound (held.cursors.active, db) + 1 := by
    rw [entryBound_eq ht hheld.walks h]
    exact Nat.le_succ_of_le (hremaining.length_le ht.ascending)
  have hwalking : Walking id plan.target.schema index (l.head?.map (·.1)) t (held.tuple, held.cursors.active, db) :=
    ⟨hheld.live, hheld.layout, hheld.walks, h⟩
  obtain ⟨⟨tuple, c, db'⟩, hread, place, hplace, hnext⟩ := (ends_readOn ht hfuel hremaining hwalking).apply
  have hheld' : Holds { tuple, cursors := held.cursors.withActive c } id plan.target.schema index place :=
    ⟨hplace.live, hplace.layout, (held.cursors.active_withActive c).symm ▸ hplace.walks,
      hheld.both.withActive ⟨hplace.walks.transaction, hplace.walks.schema⟩⟩
  have hactive : Holdings.onActive
      (fun (tuple, here) => Scan.readOn engine plan (engine.entryBound here + 1) (tuple, here)) (held, db) =
      (.ok ((plan.next? l).map fun x => plan.target.schema.rowOf x.1.2),
        ({ tuple, cursors := held.cursors.withActive c }, db')) := Holdings.onActive_eq hread
  cases hl : plan.next? l with
  | some x =>
    obtain ⟨e, rest⟩ := x
    cases hnext e rest hl
    refine ⟨.running { tuple, cursors := held.cursors.withActive c } (plan.target.schema.rowOf e.2),
      ⟨e, rest, hl, rfl, hheld'⟩, Ends.of_apply (u := db') ?_ hplace.has⟩
    unfold Scan.readAhead
    simp only [hactive, hl, Option.map_some]
  | none =>
    obtain ⟨db'', hclose, hhas⟩ := (ends_closeHoldings hheld' hplace.has).apply
    refine ⟨.closed, hl, Ends.of_apply (u := db'') ?_ hhas⟩
    unfold Scan.readAhead
    simp only [hactive, hl, Option.map_none, hclose]

end Memory
end RowStore

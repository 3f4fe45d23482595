import RowStore.Proofs.ScanSteps

/-!
# Opening a scan and taking its rows

A scan that has been opened has before it the entries of the rows that it is to meet (`ends_open`).  Each row that is
asked for is the next one to be handed out, and leaves the entries behind it before the scan (`ends_next_some`).
-/
namespace RowStore

open Memory (Cursor Database Transaction Table engine entryColumns indexColumns)

/-! ## The target -/

namespace Target

variable {target : Target} {index : Option Index}

/-- The index that is named is the one that is found under its name. -/
theorem secondary?_eq (h : target.secondaryIndex = .ok index) :
    ∀ i ∈ index, target.schema.secondary? i.name = some i := by
  unfold secondaryIndex at h
  cases hname : target.index with
  | none =>
    rw [hname] at h
    cases h
    exact fun i hi => by cases hi
  | some name =>
    rw [hname] at h
    dsimp only at h
    cases hfound : target.schema.secondary? name with
    | none =>
      rw [hfound] at h
      cases h
    | some found =>
      rw [hfound] at h
      cases h
      rintro i ⟨⟩
      unfold TableSchema.secondary? at hfound
      have hsame : found.name = name := by simpa using List.find?_some hfound
      rw [hsame]
      exact hfound

theorem mem_secondary (h : target.secondaryIndex = .ok index) : ∀ i ∈ index, i ∈ target.schema.secondary :=
  fun i hi => List.mem_of_find?_eq_some (secondary?_eq h i hi)

theorem length_key_le (h : target.secondaryIndex = .ok index) {row : Row} {key : Key}
    (hkey : (target.keyColumns >>= fun columns => encodeLeading columns row) = .ok key) :
    key.length ≤ (entryColumns target.schema index).length := by
  obtain ⟨columns, hcolumns, hencode⟩ := bind_ok_iff.1 hkey
  have hshort := length_encodeLeading_le hencode
  unfold keyColumns at hcolumns
  rw [h] at hcolumns
  refine hshort.trans ?_
  unfold entryColumns
  rw [List.length_append]
  cases index with
  | none =>
    cases hcolumns
    exact Nat.le_add_left _ _
  | some i =>
    cases hcolumns
    exact Nat.le_add_right _ _

end Target

namespace Memory

open Attempt
open Cursor (At)

variable {plan : Plan} {index : Option Index} {key : Key} {txn : Transaction} {db : Database} {t : Table}

/-- What the walk of a plan meets is what it has before it. -/
theorem Table.Readable.remaining_walk (ht : t.Readable plan.target.schema index)
    (hindex : plan.target.secondaryIndex = .ok index)
    (hkey : (plan.target.keyColumns >>= fun columns => encodeLeading columns plan.keyRow) = .ok key) :
    (t.view index).seek key plan.searchMode = (t.walk index key plan.searchMode plan.direction).head?.map (·.1) ∧
      (t.view index).Remaining plan.direction (t.walk index key plan.searchMode plan.direction) := by
  refine Table.remaining_walk key ht.consistent ht.indexed ?_ plan.searchMode plan.direction
  rw [ht.populated.sound.schema]
  exact Target.length_key_le hindex hkey

/-! ## Opening -/

theorem Cursor.keyColumns_eq (c : Cursor) : c.keyColumns = entryColumns c.schema c.index := by
  unfold Cursor.keyColumns entryColumns indexColumns
  cases c.index <;> rfl

theorem ends_place {schema : TableSchema} {id : Nat} (ht : t.Readable schema index) {c : Cursor}
    (hwalks : c.Walks id schema index none) (hkey : key.length ≤ (entryColumns schema index).length)
    (mode : SearchMode) (h : db.Has id schema.name t) :
    ∃ tuple : Tuple, tuple.disposed = false ∧ tuple.layout = .clustered ∧
      Ends (do
        let _ ← engine.position key mode
        engine.readTuple) (c, db) (.ok tuple)
        fun s => s.1.Walks id schema index ((t.view index).seek key mode) ∧ s.2.Has id schema.name t := by
  obtain ⟨entries, hentries⟩ := Table.exists_entriesOf ht.consistent ht.indexed
  have hseek := Table.seek_view ht.consistent ht.indexed hentries key mode
  have hplaced : (c.placed (entries.seek key mode)).Walks id schema index (entries.seek key mode) :=
    { hwalks with position := rfl, positioned := fun h => h }
  have hposition := ends_position key hwalks.isOpen (by rw [c.keyColumns_eq, hwalks.schema, hwalks.index]; exact hkey)
    mode (hwalks.index ▸ hentries) (hwalks.has_iff.2 h)
  refine ⟨(c.placed (entries.seek key mode)).freshTuple, rfl, hplaced.readLayout_eq, Ends.bind hposition fun s hs => ?_⟩
  obtain ⟨c', db'⟩ := s
  obtain ⟨rfl, h'⟩ := hs
  refine (Cursor.ends_readTuple hplaced.isOpen h').mono fun s hs => ?_
  obtain ⟨c'', db''⟩ := s
  obtain ⟨rfl, h''⟩ := hs
  exact ⟨hseek ▸ hplaced, hplaced.has_iff.1 h''⟩

/-- **A scan starts** where the search stops, whether or not it locks. -/
theorem ends_start (plan : Plan) {schema : TableSchema} {id : Nat} (ht : t.Readable schema index) {c : Cursor}
    (hwalks : c.Walks id schema index none) (hkey : key.length ≤ (entryColumns schema index).length) (write : Bool)
    (h : db.Has id schema.name t) :
    ∃ tuple : Tuple, tuple.disposed = false ∧ tuple.layout = .clustered ∧
      Ends (Scan.start engine plan key write) (c, db) (.ok tuple)
        fun s => s.1.Walks id schema index ((t.view index).seek key plan.searchMode) ∧ s.2.Has id schema.name t := by
  cases write with
  | false => exact ends_place ht hwalks hkey plan.searchMode h
  | true =>
    obtain ⟨⟨c', db'⟩, hlock, rfl, h'⟩ := (Cursor.ends_lockForWrite hwalks.isOpen (hwalks.has_iff.2 h)).apply
    have hlocked : Cursor.Walks { c with lockMode := .intentionExclusive, exclusive := true } id schema index none :=
      { hwalks with position := hwalks.position }
    obtain ⟨tuple, hlive, hlayout, hplace⟩ := ends_place ht hlocked hkey plan.searchMode (hlocked.has_iff.1 h')
    refine ⟨tuple, hlive, hlayout, Ends.bind (Ends.of_apply hlock (Q := (· = (_, db'))) rfl) fun s hs => ?_⟩
    subst hs
    exact hplace

theorem ends_openIndexCursor (hindex : plan.target.secondaryIndex = .ok index) (n : Nat)
    (h : db.Has txn.id plan.target.schema.name t) :
    ∃ walked : Option Cursor,
      let table : Cursor := { id := n, transaction := txn.id, schema := plan.target.schema, index := none }
      (Cursors.mk table walked).active.Walks txn.id plan.target.schema index none ∧
        Cursors.Both (Cursor.On txn.id plan.target.schema) ⟨table, walked⟩ ∧
        Ends (Scan.openIndexCursor engine txn index) (table, db) (.ok walked)
          fun s => s.1 = table ∧ s.2.Has txn.id plan.target.schema.name t := by
  cases index with
  | none => exact ⟨none, ⟨rfl, rfl, rfl, rfl, rfl, rfl, fun h => by cases h⟩, ⟨⟨rfl, rfl⟩, ⟨rfl, rfl⟩⟩, ⟨rfl, rfl, h⟩⟩
  | some i =>
    have hfound := Target.secondary?_eq hindex i rfl
    obtain ⟨m, hcreate⟩ := Cursor.ends_create (some i) h.sees
    obtain ⟨db', hdb', h'⟩ := hcreate.apply
    have haccess := Cursor.ends_setClusterAccess
      (c := { id := m, transaction := txn.id, schema := plan.target.schema, index := some i }) rfl h'
    obtain ⟨⟨c, db''⟩, hdb'', rfl, h''⟩ := haccess.apply
    refine ⟨some { id := m, transaction := txn.id, schema := plan.target.schema, index := some i, clusterAccess := true },
      ⟨rfl, rfl, rfl, rfl, rfl, rfl, fun h => by cases h⟩, ⟨⟨rfl, rfl⟩, ⟨rfl, rfl⟩⟩,
      Ends.of_apply (u := (_, db'')) ?_ ⟨rfl, h''⟩⟩
    have hopen : engine.openIndex txn
        { id := n, transaction := txn.id, schema := plan.target.schema, index := none } i db =
        (.ok { id := m, transaction := txn.id, schema := plan.target.schema, index := some i }, db') := by
      rw [← hdb']
      show Cursor.createOnIndex txn.id _ i db = _
      unfold Cursor.createOnIndex
      dsimp only
      rw [hfound]
      rfl
    unfold Scan.openIndexCursor
    dsimp only
    rw [hopen]
    dsimp only
    rw [show engine.setClusterAccess _ = _ from hdb'']
    rfl

/-- **The cursors of a scan** are opened, and the one that is walked rests where the search stops. -/
theorem ends_take (ht : t.Readable plan.target.schema index) (hindex : plan.target.secondaryIndex = .ok index)
    (hkey : (plan.target.keyColumns >>= fun columns => encodeLeading columns plan.keyRow) = .ok key) (write : Bool)
    (h : db.Sees txn.id plan.target.schema.name t) :
    ∃ held, Holds held txn.id plan.target.schema index ((t.view index).seek key plan.searchMode) ∧
      Ends (Scan.take engine txn plan write) db (.ok held) fun db' => db'.Has txn.id plan.target.schema.name t := by
  have hshort := Target.length_key_le hindex hkey
  obtain ⟨columns, hcolumns, hencode⟩ := bind_ok_iff.1 hkey
  obtain ⟨n, hcreate⟩ := Cursor.ends_create none h
  obtain ⟨db', hdb', h'⟩ := hcreate.apply
  obtain ⟨walked, hwalks, hboth, hopen⟩ := ends_openIndexCursor hindex n h'
  obtain ⟨⟨table, db''⟩, hdb'', rfl, h''⟩ := hopen.apply
  obtain ⟨tuple, hlive, hlayout, hstart⟩ := ends_start plan ht hwalks hshort write h''
  obtain ⟨⟨c, db3⟩, hdb3, hplaced, h3⟩ := hstart.apply
  refine ⟨⟨tuple, Cursors.withActive ⟨_, walked⟩ c⟩,
    ⟨hlive, hlayout, (Cursors.active_withActive _ c).symm ▸ hplaced,
      hboth.withActive ⟨hplaced.transaction, hplaced.schema⟩⟩, ?_⟩
  refine Ends.bind_ofExcept hindex (Ends.bind_ofExcept hcolumns (Ends.bind_ofExcept hencode ?_))
  refine Ends.bind (Ends.of_apply hdb' (Q := (· = db')) rfl) fun s hs => Ends.of_apply (u := db3) ?_ h3
  subst hs
  rw [hdb'']
  dsimp only
  rw [Cursors.onActive_eq hdb3]

/-- **An opened scan has before it what it is to meet.** -/
theorem ends_open (ht : t.Readable plan.target.schema index) (hindex : plan.target.secondaryIndex = .ok index)
    (hkey : (plan.target.keyColumns >>= fun columns => encodeLeading columns plan.keyRow) = .ok key) (write : Bool)
    (h : db.Sees txn.id plan.target.schema.name t) :
    ∃ progress, Progress.Ahead plan txn.id index (t.walk index key plan.searchMode plan.direction) progress ∧
      Ends (Scan.open engine txn plan write) db (.ok ⟨plan, progress⟩) fun db' =>
        db'.Has txn.id plan.target.schema.name t := by
  obtain ⟨hseek, hremaining⟩ := ht.remaining_walk hindex hkey
  obtain ⟨held, hheld, htake⟩ := ends_take ht hindex hkey write h
  rw [hseek] at hheld
  obtain ⟨db', hdb', h'⟩ := htake.apply
  obtain ⟨progress, hahead, hread⟩ := ends_readAhead ht hremaining hheld h'
  refine ⟨progress, hahead, Ends.bind (Ends.of_apply hdb' (Q := (· = db')) rfl) fun s hs => ?_⟩
  subst hs
  exact Ends.bind hread fun s hs => Ends.pure hs

/-! ## Taking rows -/

variable {id : Nat} {l : List (Key × List Cell)} {progress : Progress Cursor}

theorem ends_next_none (hahead : Progress.Ahead plan id index l progress) (hnext : plan.next? l = none) (db : Database) :
    Ends (Scan.next engine) (⟨plan, progress⟩, db) (.ok none) (· = (⟨plan, .closed⟩, db)) := by
  cases progress with
  | closed => exact ⟨rfl, rfl⟩
  | running held row =>
    obtain ⟨e, rest, heq, -⟩ := hahead
    rw [hnext] at heq
    cases heq

/-- **The next row is handed out**, and the entries behind it are before the scan. -/
theorem ends_next_some (ht : t.Readable plan.target.schema index) (hahead : Progress.Ahead plan id index l progress)
    {e : Key × List Cell} {rest : List (Key × List Cell)} (hnext : plan.next? l = some (e, rest))
    (hremaining : (t.view index).Remaining plan.direction rest) (h : db.Has id plan.target.schema.name t) :
    ∃ progress', Progress.Ahead plan id index rest progress' ∧
      Ends (Scan.next engine) (⟨plan, progress⟩, db) (.ok (some (plan.target.schema.rowOf e.2)))
        fun s => s.1 = ⟨plan, progress'⟩ ∧ s.2.Has id plan.target.schema.name t := by
  cases progress with
  | closed =>
    have hnone : plan.next? l = none := hahead
    rw [hnext] at hnone
    cases hnone
  | running held row =>
    obtain ⟨e', rest', heq, rfl, hheld⟩ := hahead
    rw [hnext] at heq
    cases heq
    obtain ⟨progress', hahead', hread⟩ := ends_readAhead ht hremaining hheld h
    obtain ⟨db', hdb', h'⟩ := hread.apply
    refine ⟨progress', hahead', Ends.of_apply (u := (⟨plan, progress'⟩, db')) ?_ ⟨rfl, h'⟩⟩
    unfold Scan.next
    dsimp only
    rw [hdb']

end Memory
end RowStore

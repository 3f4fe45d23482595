import RowStore.Proofs.BuiltSchema
import RowStore.Proofs.TableInvariant

/-!
# What a write does to a table

A write on a table is refused for one reason and then leaves the table as it was, or it is carried out in full
(`insert_apply`, `remove_apply`, `replace_apply`).  A replacement takes the old row out before it tries the new one, and
putting the old one back cannot fail.  So every write, with whatever cells and at whatever key, keeps a table consistent
and its schema (`Sound.insert`, `Sound.remove`, `Sound.replace`).
-/
namespace RowStore
namespace Memory
namespace Table

/-- Why a table does not take a row, if it does not. -/
def rejection? (t : Table) (row : List Cell) : Option Status :=
  if !t.fits row then some .dataMismatch
  else if t.rows.contains (t.primaryKey row) then some .duplicateKey
  else t.refusal? row

variable {t : Table} {row : List Cell} {key : Key}

theorem rejection?_eq_none_iff : t.rejection? row = none ↔
    Fits t.schema.columns row ∧ t.rows.get? (t.primaryKey row) = none ∧ t.refusal? row = none := by
  unfold rejection?
  rw [← fits_iff]
  cases hfits : t.fits row with
  | false => simp
  | true =>
    cases hget : t.rows.get? (t.primaryKey row) with
    | none => simp [OrderedMap.contains, hget]
    | some old => simp [OrderedMap.contains, hget]

/-! ## The writes -/

/-- **A row is added, or refused without a trace.** -/
theorem insert_apply (row : List Cell) (t : Table) : insert row t =
    match t.rejection? row with
    | some status => (.error (.engine status), t)
    | none => (.ok (), t.withRow row) := by
  show (Attempt.state >>= fun table => _) t = _
  rw [Attempt.bind_apply]
  unfold rejection?
  simp only [Attempt.state]
  cases t.fits row with
  | false => rfl
  | true =>
    cases t.rows.contains (t.primaryKey row) with
    | true => rfl
    | false => cases t.refusal? row <;> simp [Attempt.fail, Attempt.modify]

/-- **A row is taken out and answered, or there is none.** -/
theorem remove_apply (key : Key) (t : Table) : remove key t =
    match t.rows.get? key with
    | none => (.error (.engine .recordNotFound), t)
    | some row => (.ok row, t.withoutRow key row) := by
  show (Attempt.state >>= fun table => _) t = _
  rw [Attempt.bind_apply]
  simp only [Attempt.state]
  cases t.rows.get? key <;> rfl

/-- **A row is replaced, or the table is as it was**: what was taken out is put back. -/
theorem replace_apply (h : t.Consistent) (hnames : DistinctNames t.schema.secondary) (key : Key) (row : List Cell) :
    replace key row t =
      if t.fits row then
        match t.rows.get? key with
        | none => (.error (.engine .recordNotFound), t)
        | some old =>
          match (t.withoutRow key old).rejection? row with
          | some status => (.error (.engine status), t)
          | none => (.ok (), (t.withoutRow key old).withRow row)
      else (.error (.engine .dataMismatch), t) := by
  show (Attempt.state >>= fun table => _) t = _
  rw [Attempt.bind_apply]
  simp only [Attempt.state]
  cases hfits : t.fits row with
  | false => rfl
  | true =>
    simp only [Bool.not_true, Bool.false_eq_true, if_false, if_true]
    rw [Attempt.bind_apply, remove_apply]
    cases hget : t.rows.get? key with
    | none => rfl
    | some old =>
      simp only [Attempt.bind_apply, Attempt.outcome, insert_apply]
      cases hnew : (t.withoutRow key old).rejection? row with
      | none => rfl
      | some status =>
        -- the old row is taken back, and the table is what it was
        have hold : (t.withoutRow key old).rejection? old = none :=
          rejection?_eq_none_iff.2 ⟨h.fits _ (h.mem_of_get? hget).1, h.get?_withoutRow hget,
            h.refusal?_withoutRow hnames hget⟩
        simp only [Attempt.bind_apply, insert_apply, hold, h.withRow_withoutRow hnames hget]
        rfl

/-! ## What every write keeps -/

/-- A consistent table with a certain schema. -/
structure Sound (schema : TableSchema) (t : Table) : Prop where
  schema : t.schema = schema
  consistent : t.Consistent

variable {schema : TableSchema}

theorem Sound.new (hschema : schema.WellFormed) : (Table.new schema).Sound schema :=
  ⟨rfl, Consistent.new hschema.indexNames⟩

theorem Sound.withRow (h : t.Sound schema) (hschema : schema.WellFormed) (hnew : t.rejection? row = none) :
    (t.withRow row).Sound schema := by
  obtain ⟨rfl, hconsistent⟩ := h
  obtain ⟨hfits, hkey, hrefusal⟩ := rejection?_eq_none_iff.1 hnew
  exact ⟨rfl, hconsistent.withRow hschema.indexNames hfits hkey hrefusal⟩

theorem Sound.withoutRow (h : t.Sound schema) (hschema : schema.WellFormed) (hrow : t.rows.get? key = some row) :
    (t.withoutRow key row).Sound schema := by
  obtain ⟨rfl, hconsistent⟩ := h
  exact ⟨rfl, hconsistent.withoutRow hschema.indexNames hrow⟩

theorem Sound.insert (h : t.Sound schema) (hschema : schema.WellFormed) (row : List Cell) :
    (Table.insert row t).2.Sound schema := by
  rw [insert_apply]
  cases hnew : t.rejection? row with
  | some status => exact h
  | none => exact h.withRow hschema hnew

theorem Sound.remove (h : t.Sound schema) (hschema : schema.WellFormed) (key : Key) :
    (Table.remove key t).2.Sound schema := by
  rw [remove_apply]
  cases hrow : t.rows.get? key with
  | none => exact h
  | some row => exact h.withoutRow hschema hrow

theorem Sound.replace (h : t.Sound schema) (hschema : schema.WellFormed) (key : Key) (row : List Cell) :
    (Table.replace key row t).2.Sound schema := by
  rw [replace_apply h.consistent (h.schema ▸ hschema.indexNames)]
  split
  · cases hold : t.rows.get? key with
    | none => exact h
    | some old =>
      dsimp only
      cases hnew : (t.withoutRow key old).rejection? row with
      | some status => exact h
      | none => exact (h.withoutRow hschema hold).withRow hschema hnew
  · exact h

end Table
end Memory
end RowStore

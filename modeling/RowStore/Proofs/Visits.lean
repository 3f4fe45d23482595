import RowStore.Proofs.ScanDeeds

/-!
# Visits

Whatever a caller does with the rows of a scan, it pulls a row and visits it (`Scan.visitNext`).  Mapping the rows is a
visit that cannot fail (`nextMapped_eq`), a sweep visits a row by carrying a mutation out (`Sweep.next_eq`), and a caller
that pulls rows by hand visits each of them with what it does before the next pull.
-/
namespace RowStore

open Attempt

variable {σ τ κ ρ α β : Type} {E : Engine σ τ κ}

theorem Attempt.exhaust_apply {ε : Type} (m : Attempt ε σ (Option α)) (limit : Nat) (s : σ) :
    exhaust m (limit + 1) s = match m s with
      | (.error e, s) => (.error e, s)
      | (.ok none, s) => (.ok [], s)
      | (.ok (some a), s) =>
        match exhaust m limit s with
        | (.error e, s) => (.error e, s)
        | (.ok rest, s) => (.ok (a :: rest), s) := by
  show (m >>= _) s = _
  rw [bind_apply]
  rcases m s with ⟨e | _ | a, s⟩
  · rfl
  · rfl
  dsimp only
  rw [bind_apply]
  rcases exhaust m limit s with ⟨e | rest, s⟩ <;> rfl

namespace Scan

/-- Pulls a row and visits it.  Where the visit fails, the scan is closed. -/
def visitNext (E : Engine σ τ κ) (visit : Row → Action (ρ × σ) β) : Action (ρ × Scan κ × σ) (Option β) :=
  fun (notes, here) =>
    match next E here with
    | (.error e, here) => (.error e, (notes, here))
    | (.ok none, here) => (.ok none, (notes, here))
    | (.ok (some row), (scan, s)) =>
      match visit row (notes, s) with
      | (.ok b, (notes, s)) => (.ok (some b), (notes, scan, s))
      | (.error e, (notes, s)) => (.error e, (notes, (close E (scan, s)).2))

/-- Visits a row by what a function makes of it. -/
def mapping (f : Row → ρ → β × ρ) : Row → Action (ρ × σ) β := fun row (notes, s) =>
  (.ok (f row notes).1, ((f row notes).2, s))

/-- Visits a row by carrying out the mutation that is decided on. -/
def mutating (E : Engine σ τ κ) (txn : τ) (schema : TableSchema) (decide : Row → ρ → Mutation × ρ) :
    Row → Action (ρ × σ) Mutation := fun row (notes, s) =>
  match (decide row notes).1.dispatch E txn schema s with
  | (.ok _, s) => (.ok (decide row notes).1, ((decide row notes).2, s))
  | (.error e, s) => (.error e, ((decide row notes).2, s))

variable {visit : Row → Action (ρ × σ) β}

theorem nextMapped_apply (f : Row → ρ → β × ρ) (notes : ρ) (here : Scan κ × σ) :
    nextMapped E f (notes, here) = match next E here with
      | (.error e, here) => (.error e, (notes, here))
      | (.ok none, here) => (.ok none, (notes, here))
      | (.ok (some row), here) => (.ok (some (f row notes).1), ((f row notes).2, here)) := by
  unfold nextMapped
  rw [bind_apply]
  have hnext : (liftM (next E) : Action (ρ × Scan κ × σ) (Option Row)) (notes, here) =
      ((next E here).1, (notes, (next E here).2)) := rfl
  rw [hnext]
  rcases next E here with ⟨e | _ | row, here⟩ <;> rfl

/-- **Mapping is a visit.** -/
theorem nextMapped_eq (f : Row → ρ → β × ρ) : nextMapped E f = visitNext E (mapping f) := by
  funext ⟨notes, here⟩
  rw [nextMapped_apply]
  unfold visitNext mapping
  dsimp only
  rcases next E here with ⟨e | _ | row, scan, s⟩ <;> rfl

theorem visitNext_apply (notes : ρ) (here : Scan κ × σ) :
    visitNext E visit (notes, here) = match next E here with
      | (.error e, here) => (.error e, (notes, here))
      | (.ok none, here) => (.ok none, (notes, here))
      | (.ok (some row), (scan, s)) =>
        match visit row (notes, s) with
        | (.ok b, (notes, s)) => (.ok (some b), (notes, scan, s))
        | (.error e, (notes, s)) => (.error e, (notes, (close E (scan, s)).2)) := rfl

theorem next_running (plan : Plan) (held : Holdings κ) (row : Row) (s : σ) :
    next E (⟨plan, .running held row⟩, s) = match readAhead E plan held s with
      | (.ok progress, s) => (.ok (some row), (⟨plan, progress⟩, s))
      | (.error e, s) => (.error e, (⟨plan, .closed⟩, s)) := rfl

/-! ## A closed scan -/

/-- **A closed scan has no more rows.** -/
theorem next_of_closed {scan : Scan κ} (h : scan.progress = .closed) (s : σ) :
    next E (scan, s) = (.ok none, (scan, s)) := by
  obtain ⟨plan, progress⟩ := scan
  cases h
  rfl

theorem visitNext_of_closed {scan : Scan κ} (h : scan.progress = .closed) (notes : ρ) (s : σ) :
    visitNext E visit (notes, scan, s) = (.ok none, (notes, scan, s)) := by
  rw [visitNext_apply, next_of_closed h]

theorem close_of_closed {scan : Scan κ} (h : scan.progress = .closed) (s : σ) :
    close E (scan, s) = (.ok (), (scan, s)) := by
  obtain ⟨plan, progress⟩ := scan
  cases h
  rfl

theorem closed_of_close (here : Scan κ × σ) : (close E here).2.1.progress = .closed := by
  obtain ⟨⟨plan, progress⟩, s⟩ := here
  unfold close
  cases progress <;> rfl

/-- **A failed pull closes the scan.** -/
theorem closed_of_next_error {here there : Scan κ × σ} {e : Error} (h : next E here = (.error e, there)) :
    there.1.progress = .closed := by
  obtain ⟨⟨plan, progress⟩, s⟩ := here
  cases progress with
  | closed => cases h
  | running held row =>
    rw [next_running] at h
    rcases hread : readAhead E plan held s with ⟨e' | progress, s'⟩ <;> rw [hread] at h
    · cases h
      rfl
    · cases h

theorem closed_of_next_none {here there : Scan κ × σ} (h : next E here = (.ok none, there)) :
    there = here ∧ there.1.progress = .closed := by
  obtain ⟨⟨plan, progress⟩, s⟩ := here
  cases progress with
  | closed =>
    cases h
    exact ⟨rfl, rfl⟩
  | running held row =>
    rw [next_running] at h
    rcases hread : readAhead E plan held s with ⟨e' | progress, s'⟩ <;> rw [hread] at h <;> cases h

/-! ## The plan stays -/

theorem close_plan (here : Scan κ × σ) : (close E here).2.1.plan = here.1.plan := by
  obtain ⟨⟨plan, progress⟩, s⟩ := here
  unfold close
  cases progress <;> rfl

theorem next_plan (here : Scan κ × σ) : (next E here).2.1.plan = here.1.plan := by
  obtain ⟨⟨plan, progress⟩, s⟩ := here
  cases progress with
  | closed => rfl
  | running held row =>
    rw [next_running]
    rcases readAhead E plan held s with ⟨e | progress, s'⟩ <;> rfl

theorem visitNext_plan (visit : Row → Action (ρ × σ) β) (here : ρ × Scan κ × σ) :
    (visitNext E visit here).2.2.1.plan = here.2.1.plan := by
  obtain ⟨notes, here⟩ := here
  rw [← next_plan (E := E) here, visitNext_apply]
  rcases next E here with ⟨e | _ | row, scan, s⟩
  · rfl
  · rfl
  dsimp only
  rcases visit row (notes, s) with ⟨e | b, notes', s'⟩
  · exact close_plan (scan, s')
  · rfl

end Scan

/-! ## Sweeps -/

namespace Sweep

variable {txn : τ} {decide : Row → ρ → Mutation × ρ}

/-- **A sweep's step is a visit** that carries a mutation out. -/
theorem next_eq (here : ρ × Scan κ × σ) : Sweep.next E txn decide here =
    Scan.visitNext E (Scan.mutating E txn here.2.1.plan.target.schema decide) here := by
  obtain ⟨notes, here⟩ := here
  rw [Sweep.next_apply, Scan.nextMapped_apply]
  have hplan : (Scan.next E here).2.1.plan = here.1.plan := Scan.next_plan here
  unfold Scan.visitNext Scan.mutating
  dsimp only
  rw [← hplan]
  rcases Scan.next E here with ⟨e | _ | row, scan, s⟩
  · rfl
  · rfl
  dsimp only
  rcases (decide row notes).1.dispatch E txn scan.plan.target.schema s with ⟨e | hit, s'⟩ <;> rfl

/-- **A sweep visits the rows that are left.** -/
theorem drain_eq : ∀ (limit : Nat) (here : ρ × Scan κ × σ), drain E txn decide limit here =
    exhaust (Scan.visitNext E (Scan.mutating E txn here.2.1.plan.target.schema decide)) limit here
  | 0, _ => rfl
  | limit + 1, here => by
    unfold drain
    rw [exhaust_apply, exhaust_apply, next_eq]
    have hplan := Scan.visitNext_plan (E := E) (Scan.mutating E txn here.2.1.plan.target.schema decide) here
    rcases hnext : Scan.visitNext E (Scan.mutating E txn here.2.1.plan.target.schema decide) here with
      ⟨e | _ | mutation, there⟩
    · rfl
    · rfl
    have hrest := drain_eq limit there
    unfold drain at hrest
    rw [hnext] at hplan
    dsimp only at hplan ⊢
    rw [hrest, hplan]

end Sweep
end RowStore

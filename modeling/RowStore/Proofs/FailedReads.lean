import RowStore.Proofs.PopulatedRuns
import RowStore.Proofs.Visits

/-!
# A failed read takes a row away

A scan reads entry after entry (`Scan.entries`), and is a row ahead of its caller.  So the pull that meets an entry which
cannot be read or decoded has a row at hand, read before, that it was to hand out.  It answers the error in the row's
place and closes the scan.  Of the selected rows in front of the entry all but the last are handed out, whatever the
caller does with them, and the last one never is (`failed_read_loses_row`, `Database.row_before_failure_is_lost`).
-/
namespace RowStore

open Attempt

variable {σ τ κ ρ α β γ : Type}

namespace Scan

/-! ## The entries that a scan meets -/

section

variable (E : Engine σ τ κ) (plan : Plan)

/-- Reads the entry under the cursor and decodes its row. -/
def readEntry : Action (Tuple × κ × σ) Row := do
  E.readRow
  plan.target.schema.decodeRow (← Attempt.held)

/-- Moves past an entry, unless its row ends the scan, and answers whether to read on. -/
def passEntry (row : Row) : Action (Tuple × κ × σ) Bool := do
  Tuple.clear
  if !plan.continues row then return false
  Attempt.below (E.advance plan.direction)
  return !plan.selects row

/-- The entries that reading ahead meets, each with its row or with the error of reading or decoding it. -/
def entries : Nat → Tuple × κ × σ → List (Except Error Row)
  | 0, _ => []
  | fuel + 1, here =>
    if !(E.isPositioned here.2 && E.hasNext here.2) then []
    else
      match readEntry E plan here with
      | (.error e, _) => [.error e]
      | (.ok row, here) => .ok row ::
        match passEntry E plan row here with
        | (.ok true, here) => entries fuel here
        | _ => []

theorem readOn_eq (fuel : Nat) : readOn E plan (fuel + 1) = (do
    let here ← Attempt.state
    if !(E.isPositioned here.2 && E.hasNext here.2) then return none
    let row ← readEntry E plan
    Tuple.clear
    if !plan.continues row then return none
    Attempt.below (E.advance plan.direction)
    if plan.selects row then return some row
    readOn E plan fuel : Action (Tuple × κ × σ) (Option Row)) := by
  conv_lhs => unfold readOn
  unfold readEntry
  simp only [bind_assoc]
  rfl

theorem readOn_apply (fuel : Nat) (here : Tuple × κ × σ) :
    readOn E plan (fuel + 1) here =
      if !(E.isPositioned here.2 && E.hasNext here.2) then (.ok none, here)
      else
        match readEntry E plan here with
        | (.error e, here) => (.error e, here)
        | (.ok row, here) =>
          match passEntry E plan row here with
          | (.error e, here) => (.error e, here)
          | (.ok true, here) => readOn E plan fuel here
          | (.ok false, here) => (.ok (if plan.continues row then some row else none), here) := by
  rw [readOn_eq, bind_apply]
  dsimp only [Attempt.state]
  split
  · rfl
  rw [bind_apply]
  rcases readEntry E plan here with ⟨e | row, here⟩
  · rfl
  dsimp only
  unfold passEntry
  rw [bind_apply, bind_apply]
  rcases (Tuple.clear : Action (Tuple × κ × σ) Unit) here with ⟨e | _, here⟩
  · rfl
  dsimp only
  cases hcontinues : plan.continues row with
  | false => rfl
  | true =>
    simp only [Bool.not_true, Bool.false_eq_true, if_false, if_true]
    rw [bind_apply, bind_apply]
    rcases (Attempt.below (E.advance plan.direction) : Action (Tuple × κ × σ) Unit) here with ⟨e | _, here⟩
    · rfl
    · cases plan.selects row <;> rfl

end

/-- How reading ahead ends by what it has met: with the first row that is selected, with the error of an entry that could
not be read or decoded, or for another reason. -/
inductive Meets (plan : Plan) : List (Except Error Row) → Except Error (Option Row) → Prop
  | found (passed : List Row) {row : Row} : passed.filter plan.selects = [] → plan.selects row = true →
    Meets plan ((passed ++ [row]).map .ok) (.ok (some row))
  | unread (passed : List Row) {e : Error} : passed.filter plan.selects = [] →
    Meets plan (passed.map .ok ++ [.error e]) (.error e)
  | through (rows : List Row) {r : Except Error (Option Row)} : (∀ row, r ≠ .ok (some row)) →
    Meets plan (rows.map .ok) r

variable {E : Engine σ τ κ} {plan : Plan}

theorem Meets.pass {met : List (Except Error Row)} {r : Except Error (Option Row)} {row : Row} (h : Meets plan met r)
    (hrow : plan.selects row = false) : Meets plan (.ok row :: met) r := by
  have hpassed : ∀ {passed : List Row}, passed.filter plan.selects = [] → (row :: passed).filter plan.selects = [] := by
    intro passed h
    rw [List.filter_cons_of_neg (by simp [hrow]), h]
  cases h with
  | found passed h hnext => exact .found (row :: passed) (hpassed h) hnext
  | unread passed h => exact .unread (row :: passed) (hpassed h)
  | through rows h => exact .through (row :: rows) h

theorem passEntry_ok {row : Row} {b : Bool} {here there : Tuple × κ × σ}
    (h : passEntry E plan row here = (.ok b, there)) : b = (plan.continues row && !plan.selects row) := by
  revert h
  unfold passEntry
  rw [bind_apply]
  rcases (Tuple.clear : Action (Tuple × κ × σ) Unit) here with ⟨e | _, here⟩
  · exact fun h => by cases h
  dsimp only
  cases plan.continues row with
  | false =>
    intro h
    cases h
    rfl
  | true =>
    simp only [Bool.not_true, Bool.false_eq_true, if_false]
    rw [bind_apply]
    rcases (Attempt.below (E.advance plan.direction) : Action (Tuple × κ × σ) Unit) here with ⟨e | _, here⟩
    · exact fun h => by cases h
    · intro h
      cases h
      rfl

/-- A scan that ends may fail to close. -/
theorem Meets.closing {met : List (Except Error Row)} (h : Meets plan met (.ok none)) (e : Error) :
    Meets plan met (.error e) := by
  cases h with
  | through rows _ => exact .through rows fun _ h => by cases h

theorem Meets.rows_of_ok {met : List (Except Error Row)} {row? : Option Row} (h : Meets plan met (.ok row?)) :
    ∃ rows : List Row, met = rows.map .ok ∧ ∀ row, row? = some row → rows.filter plan.selects = [row] := by
  cases h with
  | @found passed row hpassed hrow =>
    refine ⟨passed ++ [row], rfl, fun next hnext => ?_⟩
    cases hnext
    rw [List.filter_append, hpassed, List.filter_singleton, hrow]
    rfl
  | through rows h => exact ⟨rows, rfl, fun row hrow => absurd (congrArg Except.ok hrow) (h row)⟩

theorem meets_entries (plan : Plan) : ∀ (fuel : Nat) (here : Tuple × κ × σ),
    Meets plan (entries E plan fuel here) (readOn E plan fuel here).1
  | 0, _ => .through [] fun _ h => by cases h
  | fuel + 1, here => by
    rw [readOn_apply]
    unfold entries
    split
    · exact .through [] fun _ h => by cases h
    rcases readEntry E plan here with ⟨e | row, here⟩
    · exact .unread [] rfl
    dsimp only
    rcases hpass : passEntry E plan row here with ⟨e | _ | _, here⟩
    · exact .through [row] fun _ h => by cases h
    · have hrow := passEntry_ok hpass
      cases hcontinues : plan.continues row with
      | false => exact .through [row] fun _ h => by cases h
      | true =>
        rw [hcontinues, Bool.true_and, eq_comm, Bool.not_eq_false'] at hrow
        exact .found [] rfl hrow
    · have hrow := passEntry_ok hpass
      rw [eq_comm, Bool.and_eq_true, Bool.not_eq_true'] at hrow
      exact (meets_entries plan fuel here).pass hrow.2

/-- The entries that a scan meets when it reads ahead. -/
def ahead (E : Engine σ τ κ) (plan : Plan) (held : Holdings κ) (s : σ) : List (Except Error Row) :=
  entries E plan (E.entryBound (held.cursors.reader, s) + 1) (held.tuple, held.cursors.reader, s)

end Scan

def Progress.row? : Progress κ → Option Row
  | .running _ row => some row
  | .closed => none

namespace Scan

variable {E : Engine σ τ κ}

theorem readAhead_apply (plan : Plan) (held : Holdings κ) (s : σ) : readAhead E plan held s =
    match Holdings.onActive (readOn E plan (E.entryBound (held.cursors.reader, s) + 1)) (held, s) with
    | (.ok (some row), (held, s)) => (.ok (.running held row), s)
    | (.ok none, (held, s)) => ((held.close E s).1.map fun _ => .closed, (held.close E s).2)
    | (.error e, (held, s)) => (.error e, (held.close E s).2) := by
  have hwalk : Holdings.onActive (fun here => readOn E plan (E.entryBound here.2 + 1) here) (held, s) =
      Holdings.onActive (readOn E plan (E.entryBound (held.cursors.reader, s) + 1)) (held, s) := by
    obtain ⟨tuple, table, index⟩ := held
    cases index <;> rfl
  unfold readAhead
  dsimp only
  rw [hwalk]
  rcases Holdings.onActive (readOn E plan (E.entryBound (held.cursors.reader, s) + 1)) (held, s) with
    ⟨e | _ | row, held, s⟩
  · rfl
  · dsimp only
    rcases held.close E s with ⟨e | _, s⟩ <;> rfl
  · rfl

/-- **Reading ahead ends by what it has met.** -/
theorem meets_ahead (plan : Plan) (held : Holdings κ) (s : σ) :
    Meets plan (ahead E plan held s) ((readAhead E plan held s).1.map Progress.row?) := by
  have hactive : ∀ walk : Action (Tuple × κ × σ) (Option Row),
      (Holdings.onActive walk (held, s)).1 = (walk (held.tuple, held.cursors.reader, s)).1 := by
    intro walk
    obtain ⟨tuple, table, index⟩ := held
    cases index <;> rfl
  have hwalk := meets_entries (E := E) plan (E.entryBound (held.cursors.reader, s) + 1)
    (held.tuple, held.cursors.reader, s)
  rw [← hactive] at hwalk
  rw [readAhead_apply]
  unfold ahead
  generalize Holdings.onActive (readOn E plan (E.entryBound (held.cursors.reader, s) + 1)) (held, s) = read at hwalk ⊢
  rcases read with ⟨e | _ | row, held, s⟩
  · exact hwalk
  · dsimp only at hwalk ⊢
    rcases (held.close E s).1 with e | _
    · exact hwalk.closing e
    · exact hwalk
  · exact hwalk

/-! ## What a run meets, and what it hands out -/

section

variable (E : Engine σ τ κ)

/-- The entries that the next pull meets. -/
def meetsNext (here : Scan κ × σ) : List (Except Error Row) :=
  match here.1.progress with
  | .running held _ => ahead E here.1.plan held here.2
  | .closed => []

/-- The row that the next pull hands out, if it does. -/
def givesNext (here : Scan κ × σ) : List Row :=
  match (next E here).1 with
  | .ok row? => row?.toList
  | .error _ => []

/-- What is seen during a run that visits rows: what `look` sees before each pull. -/
def gathered (look : Scan κ × σ → List γ) (visit : Row → Action (ρ × σ) β) : Nat → ρ × Scan κ × σ → List γ
  | 0, _ => []
  | limit + 1, here =>
    look here.2 ++
      match visitNext E visit here with
      | (.ok (some _), here) => gathered look visit limit here
      | _ => []

/-- The rows that are handed out during a run. -/
def handedOut (visit : Row → Action (ρ × σ) β) : Nat → ρ × Scan κ × σ → List Row := gathered E (givesNext E) visit

/-- The entries that are met from the opening of a scan on. -/
def entriesMet (txn : τ) (plan : Plan) (write : Bool) (visit : Row → Action (ρ × σ) β) (limit : Nat) :
    ρ × σ → List (Except Error Row) := fun (notes, s) =>
  match take E txn plan write s with
  | (.error _, _) => []
  | (.ok held, s) => ahead E plan held s ++
    match readAhead E plan held s with
    | (.error _, _) => []
    | (.ok progress, s) => gathered E (meetsNext E) visit limit (notes, ⟨plan, progress⟩, s)

end

variable {plan : Plan} {visit : Row → Action (ρ × σ) β} {rows : List Row} {e : Error}

theorem gathered_of_closed {scan : Scan κ} (h : scan.progress = .closed) {look : Scan κ × σ → List γ}
    (hlook : ∀ s, look (scan, s) = []) : ∀ (limit : Nat) (notes : ρ) (s : σ),
      gathered E look visit limit (notes, scan, s) = []
  | 0, _, _ => rfl
  | limit + 1, notes, s => by
    unfold gathered
    rw [visitNext_of_closed h, hlook]
    rfl

theorem givesNext_apply (here : Scan κ × σ) : givesNext E here = match next E here with
    | (.ok row?, _) => row?.toList
    | (.error _, _) => [] := by
  unfold givesNext
  rcases next E here with ⟨e | row?, there⟩ <;> rfl

theorem meetsNext_of_closed {scan : Scan κ} (h : scan.progress = .closed) (s : σ) : meetsNext E (scan, s) = [] := by
  unfold meetsNext
  rw [h]

/-- Entries that are read, and then one that fails. -/
def thenFails (rows : List Row) (e : Error) : List (Except Error Row) := rows.map .ok ++ [.error e]

theorem thenFails_ne_nil : thenFails rows e ≠ [] := List.append_ne_nil_of_right_ne_nil _ (List.cons_ne_nil _ _)

theorem thenFails_inj {rows' : List Row} {e' : Error} (h : thenFails rows e = thenFails rows' e') :
    rows = rows' ∧ e = e' := by
  obtain ⟨hrows, he⟩ := List.append_inj' h rfl
  exact ⟨List.map_injective_iff.2 (fun _ _ => Except.ok.inj) hrows, Except.error.inj (List.cons.inj he).1⟩

theorem split_thenFails : ∀ {passed rows : List Row} {more : List (Except Error Row)},
    passed.map Except.ok ++ more = thenFails rows e → ∃ rest, rows = passed ++ rest ∧ more = thenFails rest e
  | [], rows, _, h => ⟨rows, rfl, h⟩
  | row :: passed, [], _, h => by cases h
  | row :: passed, row' :: rows, more, h => by
    have hhead : Except.ok row = (Except.ok row' : Except Error Row) := (List.cons.inj h).1
    obtain ⟨rest, hrows, hmore⟩ := split_thenFails (List.cons.inj h).2
    cases hhead
    exact ⟨rest, congrArg (row :: ·) hrows, hmore⟩

theorem thenFails_ne_rows {passed : List Row} : passed.map Except.ok ≠ thenFails rows e := by
  intro h
  rw [← List.append_nil (passed.map _)] at h
  obtain ⟨rest, -, hrest⟩ := split_thenFails h
  exact thenFails_ne_nil hrest.symm

theorem visitNext_running (notes : ρ) (held : Holdings κ) (row : Row) (s : σ) :
    visitNext E visit (notes, ⟨plan, .running held row⟩, s) = match readAhead E plan held s with
      | (.error e, s) => (.error e, (notes, ⟨plan, .closed⟩, s))
      | (.ok progress, s) =>
        match visit row (notes, s) with
        | (.ok b, (notes, s)) => (.ok (some b), (notes, ⟨plan, progress⟩, s))
        | (.error e, (notes, s)) => (.error e, (notes, (close E (⟨plan, progress⟩, s)).2)) := by
  rw [visitNext_apply, next_running]
  rcases readAhead E plan held s with ⟨e | progress, s'⟩ <;> rfl

/-- **A run from a row read ahead to an entry that fails** hands out that row and the selected ones, except the last. -/
theorem handedOut_before_failure : ∀ (limit : Nat) (notes : ρ) (held : Holdings κ) (row : Row) (s : σ) {rows : List Row},
    gathered E (meetsNext E) visit limit (notes, ⟨plan, .running held row⟩, s) = thenFails rows e →
      ∃ lost there, row :: rows.filter plan.selects =
          handedOut E visit limit (notes, ⟨plan, .running held row⟩, s) ++ [lost] ∧
        exhaust (visitNext E visit) limit (notes, ⟨plan, .running held row⟩, s) = (.error e, there) ∧
        there.2.1.progress = .closed
  | 0, _, _, _, _, _, h => (thenFails_ne_nil h.symm).elim
  | limit + 1, notes, held, row, s, rows, h => by
    have hmeets := meets_ahead (E := E) plan held s
    unfold handedOut gathered at *
    rw [exhaust_apply, givesNext_apply, next_running, visitNext_running]
    rw [visitNext_running] at h
    change ahead E plan held s ++ _ = _ at h
    generalize readAhead E plan held s = read at hmeets h ⊢
    generalize ahead E plan held s = met at hmeets h
    rcases read with ⟨e' | progress, s'⟩
    · -- the pull fails: the entry that has just been met is the one, and the row at hand is lost
      dsimp only at h
      rw [List.append_nil] at h
      cases hmeets with
      | unread _ hpassed =>
        obtain ⟨rfl, rfl⟩ := thenFails_inj h
        exact ⟨row, _, by rw [hpassed]; rfl, rfl, rfl⟩
      | through _ _ => exact (thenFails_ne_rows h).elim
    obtain ⟨passed, rfl, hpassed⟩ := hmeets.rows_of_ok
    dsimp only at h ⊢
    generalize visit row (notes, s') = visited at h ⊢
    rcases visited with ⟨e' | b, notes', s''⟩
    · -- the visit fails, before any entry has
      dsimp only at h
      rw [List.append_nil] at h
      exact (thenFails_ne_rows h).elim
    dsimp only at h ⊢
    obtain ⟨rest, rfl, hrest⟩ := split_thenFails h
    cases progress with
    | closed =>
      rw [gathered_of_closed rfl (meetsNext_of_closed rfl)] at hrest
      exact (thenFails_ne_nil hrest.symm).elim
    | running held' row' =>
      obtain ⟨lost, there, hrows, hrun, hclosed⟩ := handedOut_before_failure limit notes' held' row' s'' hrest
      refine ⟨lost, there, ?_, by rw [hrun], hclosed⟩
      rw [List.filter_append, hpassed row' rfl]
      exact congrArg (row :: ·) hrows

variable {txn : τ} {write : Bool} {scan : Scan κ} {s s₁ : σ}

theorem open_ok (hopen : Scan.open E txn plan write s = (.ok scan, s₁)) : ∃ held s₀ progress,
    take E txn plan write s = (.ok held, s₀) ∧ readAhead E plan held s₀ = (.ok progress, s₁) ∧
      scan = ⟨plan, progress⟩ := by
  revert hopen
  unfold Scan.open
  rw [bind_apply]
  rcases take E txn plan write s with ⟨e | held, s₀⟩
  · exact fun h => by cases h
  dsimp only
  rw [bind_apply]
  rcases hread : readAhead E plan held s₀ with ⟨e | progress, s₁⟩
  · exact fun h => by cases h
  · intro h
    cases h
    exact ⟨held, s₀, progress, rfl, hread, rfl⟩

theorem handedOut_of_open (hopen : Scan.open E txn plan write s = (.ok scan, s₁)) {limit : Nat} {notes : ρ}
    (hmet : entriesMet E txn plan write visit limit (notes, s) = thenFails rows e) :
    ∃ lost there, rows.filter plan.selects = handedOut E visit limit (notes, scan, s₁) ++ [lost] ∧
      exhaust (visitNext E visit) limit (notes, scan, s₁) = (.error e, there) ∧ there.2.1.progress = .closed := by
  obtain ⟨held, s₀, progress, htake, hread, rfl⟩ := open_ok hopen
  have hmeets := meets_ahead (E := E) plan held s₀
  unfold entriesMet at hmet
  dsimp only at hmet
  rw [htake] at hmet
  dsimp only at hmet
  rw [hread] at hmet hmeets
  obtain ⟨passed, hahead, hpassed⟩ := hmeets.rows_of_ok
  rw [hahead] at hmet
  obtain ⟨rest, rfl, hrest⟩ := split_thenFails hmet
  cases progress with
  | closed =>
    dsimp only at hrest
    rw [gathered_of_closed rfl (meetsNext_of_closed rfl)] at hrest
    exact (thenFails_ne_nil hrest.symm).elim
  | running held row =>
    obtain ⟨lost, there, hrows, hrun, hclosed⟩ := handedOut_before_failure limit notes held row s₁ hrest
    refine ⟨lost, there, ?_, hrun, hclosed⟩
    rw [List.filter_append, hpassed row rfl]
    exact hrows

/-- **The notes that a caller keeps are made of the rows that it has been handed.** -/
theorem notes_exhaust {keep : ρ → Row → ρ} (hvisit : ∀ row notes s, (visit row (notes, s)).2.1 = keep notes row) :
    ∀ (limit : Nat) (here : ρ × Scan κ × σ),
      (exhaust (visitNext E visit) limit here).2.1 = (handedOut E visit limit here).foldl keep here.1
  | 0, _ => rfl
  | limit + 1, (notes, here) => by
    unfold handedOut gathered
    rw [exhaust_apply, givesNext_apply, visitNext_apply]
    rcases next E here with ⟨e | _ | row, scan, s⟩
    · rfl
    · rfl
    dsimp only
    have hkeep := hvisit row notes s
    generalize visit row (notes, s) = visited at hkeep ⊢
    rcases visited with ⟨e | b, notes', s'⟩
    · exact hkeep
    have hrest := notes_exhaust hvisit limit (notes', scan, s')
    unfold handedOut at hrest
    dsimp only at hkeep hrest ⊢
    rw [List.foldl_append, Option.toList_some, List.foldl_cons, List.foldl_nil, ← hkeep, ← hrest]
    rcases exhaust (visitNext E visit) limit (notes', scan, s') with ⟨e | rest, there⟩ <;> rfl

theorem notes_mutating (schema : TableSchema) (decide : Row → ρ → Mutation × ρ) (row : Row) (notes : ρ) (s : σ) :
    (mutating E txn schema decide row (notes, s)).2.1 = (decide row notes).2 := by
  unfold mutating
  dsimp only
  rcases (decide row notes).1.dispatch E txn schema s with ⟨e | hit, s'⟩ <;> rfl

/-- **An entry that cannot be read or decoded takes the selected row before it away.**  Say a scan has been opened and then
meets the entries of some rows and an entry that fails.  Whatever visits the rows, those that are handed out are the
selected ones in their order, except the last; the run ends with the error, and pulls answer nothing from then on.  Those
and no others are the rows that a mapping, a callback, a fold and a sweep's decisions get to see. -/
theorem failed_read_loses_row (hopen : Scan.open E txn plan write s = (.ok scan, s₁)) {rows : List Row} {e : Error} :
    (∀ {ρ β : Type} (visit : Row → Action (ρ × σ) β) (limit : Nat) (notes : ρ),
        entriesMet E txn plan write visit limit (notes, s) = thenFails rows e →
        ∃ lost there, rows.filter plan.selects = handedOut E visit limit (notes, scan, s₁) ++ [lost] ∧
          exhaust (visitNext E visit) limit (notes, scan, s₁) = (.error e, there) ∧
          ∀ notes s, visitNext E visit (notes, there.2.1, s) = (.ok none, (notes, there.2.1, s))) ∧
      (∀ {ρ β : Type} (f : Row → ρ → β × ρ) (limit : Nat) (notes : ρ),
        entriesMet E txn plan write (mapping f) limit (notes, s) = thenFails rows e →
        ∃ there, collect E f limit (notes, scan, s₁) =
          (.error e, ((rows.filter plan.selects).dropLast.foldl (fun notes row => (f row notes).2) notes, there))) ∧
      (write = false → ∀ {ρ : Type} (visit : ρ → Row → ρ) (notes : ρ),
        entriesMet E txn plan write (mapping fun row notes => ((), visit notes row)) (scan.rowBound E s₁ + 1) (notes, s) =
          thenFails rows e →
        ∃ s₂, forEach E txn plan visit (notes, s) =
            (.error e, ((rows.filter plan.selects).dropLast.foldl visit notes, s₂)) ∧
          fold E txn plan visit notes s = (.error e, s₂)) ∧
      ∀ {ρ : Type} (decide : Row → ρ → Mutation × ρ) (limit : Nat) (notes : ρ),
        entriesMet E txn plan write (mutating E txn plan.target.schema decide) limit (notes, s) = thenFails rows e →
        ∃ there, Sweep.toEnd E txn decide limit (notes, scan, s₁) =
          (.error e, ((rows.filter plan.selects).dropLast.foldl (fun notes row => (decide row notes).2) notes, there)) := by
  have hnoted : ∀ {ρ β : Type} {visit : Row → Action (ρ × σ) β} {keep : ρ → Row → ρ} {limit : Nat} {notes : ρ},
      (∀ row notes s, (visit row (notes, s)).2.1 = keep notes row) →
      entriesMet E txn plan write visit limit (notes, s) = thenFails rows e →
      ∃ there, exhaust (visitNext E visit) limit (notes, scan, s₁) =
        (.error e, ((rows.filter plan.selects).dropLast.foldl keep notes, there)) := by
    intro ρ β visit keep limit notes hvisit hmet
    obtain ⟨lost, ⟨notes', there⟩, hrows, hrun, -⟩ := handedOut_of_open hopen hmet
    have hnotes := notes_exhaust (E := E) hvisit limit (notes, scan, s₁)
    rw [hrun] at hnotes
    rw [hrun, hrows, List.dropLast_concat, ← hnotes]
    exact ⟨there, rfl⟩
  have hcollect : ∀ {ρ β : Type} (f : Row → ρ → β × ρ) (limit : Nat) (notes : ρ),
      entriesMet E txn plan write (mapping f) limit (notes, s) = thenFails rows e →
      ∃ there, collect E f limit (notes, scan, s₁) =
        (.error e, ((rows.filter plan.selects).dropLast.foldl (fun notes row => (f row notes).2) notes, there)) := by
    intro ρ β f limit notes hmet
    unfold collect
    rw [nextMapped_eq]
    exact hnoted (fun _ _ _ => rfl) hmet
  refine ⟨fun visit limit notes hmet => ?_, hcollect, ?_, fun decide limit notes hmet => ?_⟩
  · obtain ⟨lost, there, hrows, hrun, hclosed⟩ := handedOut_of_open hopen hmet
    exact ⟨lost, there, hrows, hrun, fun notes s => visitNext_of_closed hclosed notes s⟩
  · rintro rfl ρ visit notes hmet
    obtain ⟨⟨scan', s₂⟩, hread⟩ := hcollect _ _ _ hmet
    have hforEach : forEach E txn plan visit (notes, s) =
        (.error e, ((rows.filter plan.selects).dropLast.foldl visit notes, scan'.letGo E s₂)) := by
      unfold forEach
      dsimp only
      rw [hopen]
      dsimp only
      rw [bind_apply, hread]
    refine ⟨_, hforEach, ?_⟩
    unfold fold
    rw [hforEach]
  · obtain ⟨there, hrun⟩ := hnoted (notes_mutating plan.target.schema decide) hmet
    obtain ⟨held, s₀, progress, -, -, rfl⟩ := open_ok hopen
    refine ⟨there, ?_⟩
    unfold Sweep.toEnd
    rw [bind_apply, Sweep.drain_eq, hrun]

end Scan

/-! ## Addresses that are no numbers -/

namespace Memory.Database

/-- People as somebody reads them who takes an address for a number. -/
def misread : TableSchema where
  name := "people"
  columns := [⟨"id", .int, 8, [.notNull], 0⟩, ⟨"mail", .int, 8, [], 1⟩]
  primary := ⟨"key", [⟨"id", .int, 8, [.notNull], 0⟩], true, true⟩
  secondary := []

/-- Two without an address come first, and then one with an address. -/
def addressCalls : List Call := peopleCalls ++
  [.insert ⟨1, .readCommitted⟩ people ⟨[("id", .int 1)]⟩, .insert ⟨1, .readCommitted⟩ people ⟨[("id", .int 2)]⟩,
    .insert ⟨1, .readCommitted⟩ people (person 3 "bob")]

def unaddressed (id : Int64) : Row := ⟨[("id", .int id), ("mail", .null)]⟩

def byNumber : Plan where
  target := ⟨misread, none⟩

theorem met_addresses : Scan.entriesMet engine ⟨1, .readCommitted⟩ byNumber false
    (Scan.mapping fun row seen => ((), seen ++ [row])) 5 (([] : List Row), run addressCalls) =
      Scan.thenFails [unaddressed 1, unaddressed 2] (.engine .dataMismatch) := by cbv

theorem rowBound_addresses : (match Scan.open engine ⟨1, .readCommitted⟩ byNumber false (run addressCalls) with
    | (.ok scan, db) => scan.rowBound engine db + 1
    | (.error _, _) => 0) = 5 := by cbv

/-- The first row is handed out, and the second one is not. -/
theorem failed_read_loses_row_addresses :
    ∃ db, Scan.forEach engine ⟨1, .readCommitted⟩ byNumber (fun seen row => seen ++ [row]) ([], run addressCalls) =
      (.error (.engine .dataMismatch), ([unaddressed 1], db)) := by
  have hbound := rowBound_addresses
  rcases hopen : Scan.open engine ⟨1, .readCommitted⟩ byNumber false (run addressCalls) with ⟨e | scan, db⟩ <;>
    rw [hopen] at hbound
  · cases hbound
  dsimp only at hbound
  have hmet := met_addresses
  rw [← hbound] at hmet
  obtain ⟨db', hforEach, -⟩ := (Scan.failed_read_loses_row hopen).2.2.1 rfl (fun seen row => seen ++ [row]) [] hmet
  exact ⟨db', hforEach⟩

/-- **The second row has been read and is selected, the entry behind it fails, and it is never handed out.** -/
theorem row_before_failure_is_lost :
    Scan.entriesMet engine ⟨1, .readCommitted⟩ byNumber false (Scan.mapping fun row seen => ((), seen ++ [row])) 5
        (([] : List Row), run addressCalls) =
        Scan.thenFails [unaddressed 1, unaddressed 2] (.engine .dataMismatch) ∧
      [unaddressed 1, unaddressed 2].filter byNumber.selects = [unaddressed 1, unaddressed 2] ∧
      (Scan.forEach engine ⟨1, .readCommitted⟩ byNumber (fun seen row => seen ++ [row]) ([], run addressCalls)).1 =
        .error (.engine .dataMismatch) ∧
      (Scan.forEach engine ⟨1, .readCommitted⟩ byNumber (fun seen row => seen ++ [row])
        ([], run addressCalls)).2.1 = [unaddressed 1] := by
  refine ⟨met_addresses, by cbv, by cbv, by cbv⟩

end Memory.Database
end RowStore

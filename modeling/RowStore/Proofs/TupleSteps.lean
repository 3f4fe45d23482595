import RowStore.Memory.Cursor

/-!
# What a tuple does

Setting and disposing of a tuple, as equations: a live tuple takes what it is given and is released once, a disposed one
refuses and stays as it is.
-/
namespace RowStore
namespace Tuple

variable {σ : Type}

theorem checkLive_of_live {tuple : Tuple} (h : tuple.disposed = false) : tuple.checkLive = .ok () := by
  unfold checkLive
  rw [h]
  rfl

theorem checkLive_of_disposed {tuple : Tuple} (h : tuple.disposed = true) :
    tuple.checkLive = .error (.misuse .tupleDisposed) := by
  unfold checkLive
  rw [h]
  rfl

theorem values_of_live {tuple : Tuple} (h : tuple.disposed = false) : tuple.values = .ok tuple.cells := by
  unfold values
  rw [checkLive_of_live h]
  rfl

theorem setValues_apply (cells : List Cell) (tuple : Tuple) (s : σ) : setValues cells (tuple, s) =
    if tuple.disposed then (.error (.misuse .tupleDisposed), (tuple, s))
    else (.ok (), ({ tuple with cells }, s)) := by
  unfold setValues
  by_cases hd : tuple.disposed = true
  · simp only [checkLive_of_disposed hd, if_pos hd]
  · simp only [checkLive_of_live (eq_false_of_ne_true hd), if_neg hd]

theorem dispose_apply (released : σ → σ) (tuple : Tuple) (s : σ) : dispose released (tuple, s) =
    if tuple.disposed then (.error (.misuse .tupleDisposed), (tuple, s))
    else (.ok (), ({ tuple with cells := [], disposed := true }, released s)) := by
  unfold dispose
  by_cases hd : tuple.disposed = true
  · simp only [checkLive_of_disposed hd, if_pos hd]
  · simp only [checkLive_of_live (eq_false_of_ne_true hd), if_neg hd]

end Tuple

theorem Memory.Cursor.stage_apply (row : List Cell) (tuple : Tuple) (s : Memory.Cursor × Memory.Database) :
    stage row (tuple, s) =
      if tuple.disposed then (.error (.misuse .tupleDisposed), (tuple, s))
      else (.ok row, ({ tuple with cells := row }, s)) := by
  unfold stage
  rw [Attempt.bind_apply, Tuple.setValues_apply]
  by_cases hd : tuple.disposed = true
  · simp only [if_pos hd]
  · have hlive : ({ tuple with cells := row } : Tuple).values = .ok row :=
      Tuple.values_of_live (eq_false_of_ne_true hd)
    simp only [if_neg hd, Attempt.bind_apply, Attempt.held]
    show (({ tuple with cells := row } : Tuple).values, _) = _
    rw [hlive]

end RowStore

import RowStore.Error

/-!
# Attempts

Every call on an engine may fail, and a failed call leaves a state like any other: locks taken, cursors open, rows
staged.  `Attempt ε σ α` is such a computation.  A computation on a part of a state runs on the whole by leaving the
rest alone, and a resource is held by `Attempt.holding`: what was taken is let go of when the body ends, whichever way
it ends.
-/
namespace RowStore

/-- A computation on a state `σ` that fails with an `ε` or answers an `α`, and leaves a state either way. -/
def Attempt (ε σ α : Type) : Type := σ → Except ε α × σ

/-- An attempt that fails with an error of this library. -/
abbrev Action (σ α : Type) : Type := Attempt Error σ α

namespace Attempt
variable {ε ε' σ ρ α β : Type}

protected def pure (a : α) : Attempt ε σ α := fun s => (.ok a, s)

protected def bind (m : Attempt ε σ α) (f : α → Attempt ε σ β) : Attempt ε σ β := fun s =>
  match m s with
  | (.ok a, s) => f a s
  | (.error e, s) => (.error e, s)

instance : Monad (Attempt ε σ) where
  pure := Attempt.pure
  bind := Attempt.bind

theorem bind_apply (m : Attempt ε σ α) (f : α → Attempt ε σ β) (s : σ) :
    (m >>= f) s = match m s with
      | (.ok a, s) => f a s
      | (.error e, s) => (.error e, s) := rfl

instance : LawfulMonad (Attempt ε σ) := LawfulMonad.mk' _
  (fun m => by
    funext s
    show (m >>= fun a => pure a) s = m s
    rw [bind_apply]
    rcases m s with ⟨_ | _, _⟩ <;> rfl)
  (fun _ _ => rfl)
  (fun m _ _ => by
    funext s
    simp only [bind_apply]
    rcases m s with ⟨_ | _, _⟩ <;> rfl)

def fail (e : ε) : Attempt ε σ α := fun s => (.error e, s)

def state : Attempt ε σ σ := fun s => (.ok s, s)

def modify (f : σ → σ) : Attempt ε σ Unit := fun s => (.ok (), f s)

def ofExcept (r : Except ε α) : Attempt ε σ α := fun s => (r, s)

instance : MonadLift (Except ε) (Attempt ε σ) := ⟨ofExcept⟩

/-- Runs a computation and answers how it ended; this never fails. -/
def outcome (m : Attempt ε σ α) : Attempt ε' σ (Except ε α) := fun s =>
  let (r, s) := m s
  (.ok r, s)

/-- Runs a computation for its effects, whether it fails or not. -/
def quietly (m : Attempt ε σ α) : σ → σ := fun s => (m s).2

def mapError (f : ε → ε') (m : Attempt ε σ α) : Attempt ε' σ α := fun s =>
  match m s with
  | (.ok a, s) => (.ok a, s)
  | (.error e, s) => (.error (f e), s)

/-- Repeats a computation until it answers nothing, at most `limit` times, and answers what it answered before. -/
def exhaust (m : Attempt ε σ (Option α)) : Nat → Attempt ε σ (List α)
  | 0 => return []
  | limit + 1 => do
    match ← m with
    | none => return []
    | some a => return a :: (← exhaust m limit)

/-! ## Parts of a state -/

def below (m : Attempt ε σ α) : Attempt ε (ρ × σ) α := fun (r, s) =>
  let (a, s) := m s
  (a, (r, s))

instance : MonadLift (Attempt ε σ) (Attempt ε (ρ × σ)) := ⟨below⟩

def held : Attempt ε (ρ × σ) ρ := fun (r, s) => (.ok r, (r, s))

/-- Takes a resource, runs `body` with it at hand, and lets go of what is left of it. -/
def holding (take : Attempt ε σ ρ) (letGo : ρ → σ → σ) (body : Attempt ε (ρ × σ) α) : Attempt ε σ α := fun s =>
  match take s with
  | (.error e, s) => (.error e, s)
  | (.ok r, s) =>
    let (a, (r, s)) := body (r, s)
    (a, letGo r s)

end Attempt
end RowStore

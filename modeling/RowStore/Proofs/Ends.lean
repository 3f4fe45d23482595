import Mathlib
import RowStore.Attempt

/-!
# How a computation ends

`Ends m s r Q` says that `m`, started in `s`, ends with the result `r` in a state that satisfies `Q`.  The result is known
in full, the state only as far as it matters.  Steps are chained by `Ends.bind`; a computation that holds a resource ends
as its body does (`Ends.holding`).
-/
namespace RowStore
namespace Attempt

variable {ε ε' σ ρ α β : Type}

theorem map_apply (f : α → β) (m : Attempt ε σ α) (s : σ) : (f <$> m) s = ((m s).1.map f, (m s).2) := by
  show (m >>= fun a => pure (f a)) s = _
  rw [bind_apply]
  rcases m s with ⟨_ | _, _⟩ <;> rfl

/-- The result and what is known of the state. -/
structure Ends (m : Attempt ε σ α) (s : σ) (r : Except ε α) (Q : σ → Prop) : Prop where
  result : (m s).1 = r
  after : Q (m s).2

namespace Ends

variable {m : Attempt ε σ α} {f : α → Attempt ε σ β} {s : σ} {a : α} {e : ε} {r : Except ε α} {r' : Except ε β}
  {Q R : σ → Prop}

theorem pure (h : Q s) : Ends (pure a : Attempt ε σ α) s (.ok a) Q := ⟨rfl, h⟩

theorem fail (h : Q s) : Ends (fail e : Attempt ε σ α) s (.error e) Q := ⟨rfl, h⟩

theorem modify {g : σ → σ} (h : Q (g s)) : Ends (modify g : Attempt ε σ Unit) s (.ok ()) Q := ⟨rfl, h⟩

theorem ofExcept (h : Q s) : Ends (ofExcept r) s r Q := ⟨rfl, h⟩

theorem mono (h : Ends m s r Q) (hQ : ∀ s, Q s → R s) : Ends m s r R := ⟨h.result, hQ _ h.after⟩

theorem outcome (h : Ends m s r Q) : Ends (outcome m : Attempt ε' σ (Except ε α)) s (.ok r) Q :=
  ⟨congrArg Except.ok h.result, h.after⟩

theorem apply (h : Ends m s r Q) : ∃ s', m s = (r, s') ∧ Q s' := by
  obtain ⟨rfl, hQ⟩ := h
  exact ⟨(m s).2, rfl, hQ⟩

theorem of_apply {u : σ} (h : m s = (r, u)) (hQ : Q u) : Ends m s r Q := by
  constructor
  · rw [h]
  · rw [h]
    exact hQ

/-- **A first step that answers is followed by the rest.** -/
theorem bind (hm : Ends m s (.ok a) Q) (hf : ∀ s', Q s' → Ends (f a) s' r' R) : Ends (m >>= f) s r' R := by
  obtain ⟨s', hs, hQ⟩ := hm.apply
  obtain ⟨s'', hs', hR⟩ := (hf s' hQ).apply
  refine of_apply ?_ hR
  rw [bind_apply, hs]
  exact hs'

/-- A first step that fails is the end. -/
theorem bind_error (hm : Ends m s (.error e) Q) : Ends (m >>= f) s (.error e) Q := by
  obtain ⟨s', hs, hQ⟩ := hm.apply
  refine of_apply ?_ hQ
  rw [bind_apply, hs]

theorem map {g : α → β} (h : Ends m s r Q) : Ends (g <$> m) s (r.map g) Q := by
  cases r with
  | error e => exact bind_error h
  | ok a => exact bind h fun _ hs => ⟨rfl, hs⟩

/-! Steps that leave the state alone -/

theorem bind_ofExcept {x : Except ε α} (hx : x = .ok a) (hf : Ends (f a) s r' R) :
    Ends (Attempt.ofExcept x >>= f) s r' R := by
  subst hx
  exact ⟨hf.result, hf.after⟩

theorem bind_held {x : ρ} {f : ρ → Attempt ε (ρ × σ) β} {R : ρ × σ → Prop} (hf : Ends (f x) (x, s) r' R) :
    Ends (Attempt.held >>= f) (x, s) r' R := ⟨hf.result, hf.after⟩

theorem bind_state {f : σ → Attempt ε σ β} (hf : Ends (f s) s r' R) : Ends (Attempt.state >>= f) s r' R :=
  ⟨hf.result, hf.after⟩

/-! ## Parts of a state -/

theorem below {x : ρ} (h : Ends m s r Q) : Ends (below m) (x, s) r fun p => p.1 = x ∧ Q p.2 :=
  ⟨h.result, rfl, h.after⟩

/-- **A computation that holds a resource ends as its body does.** -/
theorem holding {x : ρ} {take : Attempt ε σ ρ} {letGo : ρ → σ → σ} {body : Attempt ε (ρ × σ) α} {B : ρ × σ → Prop}
    (htake : Ends take s (.ok x) Q) (hbody : ∀ s', Q s' → Ends body (x, s') r B)
    (hletGo : ∀ p, B p → R (letGo p.1 p.2)) : Ends (holding take letGo body) s r R := by
  obtain ⟨s', hs, hQ⟩ := htake.apply
  obtain ⟨p, hp, hB⟩ := (hbody s' hQ).apply
  refine of_apply ?_ (hletGo p hB)
  unfold Attempt.holding
  rw [hs]
  dsimp only
  rw [hp]

end Ends
end Attempt
end RowStore

import RowStore.Proofs.Ends

/-!
# Two computations side by side

Two computations mirror each other along a relation of their states if, from related states, they end alike in related
states: with the same error, or with answers that go together (`Attempt.Mirrors`).  There is one rule for each way in which
computations are put together, so calls that are made of mirrored calls are mirrored.
-/
namespace RowStore
namespace Attempt

variable {ε ε' σ σ' ρ ρ' α α' β β' ι : Type}

/-- Two results are the same error, or answers that go together. -/
def Agree (A : α → α' → Prop) : Except ε α → Except ε α' → Prop
  | .ok a, .ok a' => A a a'
  | .error e, .error e' => e = e'
  | _, _ => False

theorem agree_eq_iff {r r' : Except ε α} : Agree (· = ·) r r' ↔ r = r' := by
  cases r <;> cases r' <;> simp [Agree]

theorem Agree.refl {A : α → α → Prop} (hA : ∀ a, A a a) : ∀ r : Except ε α, Agree A r r
  | .ok a => hA a
  | .error _ => rfl

/-- From related states two computations end alike in related states. -/
def Mirrors (R : σ → σ' → Prop) (A : α → α' → Prop) (m : Attempt ε σ α) (m' : Attempt ε σ' α') : Prop :=
  ∀ s s', R s s' → Agree A (m s).1 (m' s').1 ∧ R (m s).2 (m' s').2

/-- What is at hand is related, and so is the rest. -/
def Both (C : ρ → ρ' → Prop) (R : σ → σ' → Prop) (s : ρ × σ) (s' : ρ' × σ') : Prop := C s.1 s'.1 ∧ R s.2 s'.2

namespace Mirrors

variable {R : σ → σ' → Prop} {C : ρ → ρ' → Prop} {A : α → α' → Prop} {B : β → β' → Prop} {m : Attempt ε σ α}
  {m' : Attempt ε σ' α'}

theorem pure {a : α} {a' : α'} (h : A a a') :
    Mirrors R A (pure a : Attempt ε σ α) (pure a' : Attempt ε σ' α') := fun _ _ hs => ⟨h, hs⟩

theorem fail (e : ε) : Mirrors R A (fail e : Attempt ε σ α) (fail e : Attempt ε σ' α') := fun _ _ hs => ⟨rfl, hs⟩

theorem ofExcept {r : Except ε α} {r' : Except ε α'} (h : Agree A r r') :
    Mirrors R A (ofExcept r : Attempt ε σ α) (ofExcept r' : Attempt ε σ' α') := fun _ _ hs => ⟨h, hs⟩

theorem same (r : Except ε α) : Mirrors R (· = ·) (Attempt.ofExcept r : Attempt ε σ α) (Attempt.ofExcept r) :=
  ofExcept (agree_eq_iff.2 rfl)

theorem modify {f : σ → σ} {f' : σ' → σ'} (h : ∀ s s', R s s' → R (f s) (f' s')) :
    Mirrors R (· = ·) (modify f : Attempt ε σ Unit) (modify f') := fun s s' hs => ⟨rfl, h s s' hs⟩

theorem state : Mirrors R R (state : Attempt ε σ σ) state := fun _ _ hs => ⟨hs, hs⟩

theorem held : Mirrors (Both C R) C (held : Attempt ε (ρ × σ) ρ) held := fun _ _ hs => ⟨hs.1, hs⟩

theorem mono {A' : α → α' → Prop} (h : Mirrors R A m m') (hA : ∀ a a', A a a' → A' a a') : Mirrors R A' m m' := by
  intro s s' hs
  obtain ⟨hr, hR⟩ := h s s' hs
  refine ⟨?_, hR⟩
  cases h : (m s).1 <;> cases h' : (m' s').1 <;> rw [h, h'] at hr
  · exact hr
  · exact hr
  · exact hr
  · exact hA _ _ hr

theorem outcome (h : Mirrors R A m m') :
    Mirrors R (Agree A) (outcome m : Attempt ε' σ (Except ε α)) (outcome m') := fun s s' hs => h s s' hs

/-- **What follows mirrored computations may rely on their answers.** -/
theorem bind {f : α → Attempt ε σ β} {f' : α' → Attempt ε σ' β'} (hm : Mirrors R A m m')
    (hf : ∀ a a', A a a' → Mirrors R B (f a) (f' a')) : Mirrors R B (m >>= f) (m' >>= f') := by
  intro s s' hs
  obtain ⟨hr, hR⟩ := hm s s' hs
  rw [bind_apply, bind_apply]
  rcases hms : m s with ⟨e | a, u⟩ <;> rcases hms' : m' s' with ⟨e' | a', u'⟩ <;> rw [hms, hms'] at hr hR
  · exact ⟨hr, hR⟩
  · exact hr.elim
  · exact hr.elim
  · exact hf a a' hr u u' hR

/-- What follows equal answers need only be mirrored for each of them. -/
theorem bind_eq {m : Attempt ε σ α} {m' : Attempt ε σ' α} {f : α → Attempt ε σ β} {f' : α → Attempt ε σ' β'}
    (hm : Mirrors R (· = ·) m m') (hf : ∀ a, Mirrors R B (f a) (f' a)) : Mirrors R B (m >>= f) (m' >>= f') :=
  hm.bind fun a _ heq => heq ▸ hf a

/-- What follows a result may rely on it. -/
theorem ofExcept_bind {r : Except ε α} {f : α → Attempt ε σ β} {f' : α → Attempt ε σ' β'}
    (hf : ∀ a, r = .ok a → Mirrors R B (f a) (f' a)) :
    Mirrors R B (Attempt.ofExcept r >>= f) (Attempt.ofExcept r >>= f') := by
  cases r with
  | error e => exact fun _ _ hs => ⟨rfl, hs⟩
  | ok a => exact hf a rfl

/-- Nothing follows a failure. -/
theorem fail_bind {e : ε} {f : α → Attempt ε σ β} {f' : α' → Attempt ε σ' β'} :
    Mirrors R B (Attempt.fail e >>= f) (Attempt.fail e >>= f') := fun _ _ hs => ⟨rfl, hs⟩

theorem map {f : α → β} {f' : α' → β'} (hm : Mirrors R A m m') (hf : ∀ a a', A a a' → B (f a) (f' a')) :
    Mirrors R B (f <$> m) (f' <$> m') := bind hm fun a a' ha => pure (hf a a' ha)

/-- Computations on a part of the state leave what is at hand alone. -/
theorem below (h : Mirrors R A m m') : Mirrors (Both C R) A (below m) (below m') := by
  intro s s' hs
  obtain ⟨hr, hR⟩ := h s.2 s'.2 hs.2
  exact ⟨hr, hs.1, hR⟩

/-- **Computations that hold resources are mirrored** if taking, using and letting go are. -/
theorem holding {take : Attempt ε σ ρ} {take' : Attempt ε σ' ρ'} {letGo : ρ → σ → σ} {letGo' : ρ' → σ' → σ'}
    {body : Attempt ε (ρ × σ) α} {body' : Attempt ε (ρ' × σ') α'} (htake : Mirrors R C take take')
    (hbody : Mirrors (Both C R) A body body') (hletGo : ∀ x x' s s', C x x' → R s s' → R (letGo x s) (letGo' x' s')) :
    Mirrors R A (holding take letGo body) (holding take' letGo' body') := by
  intro s s' hs
  obtain ⟨hr, hR⟩ := htake s s' hs
  unfold Attempt.holding
  rcases hts : take s with ⟨e | x, u⟩ <;> rcases hts' : take' s' with ⟨e' | x', u'⟩ <;> rw [hts, hts'] at hr hR
  · exact ⟨hr, hR⟩
  · exact hr.elim
  · exact hr.elim
  · obtain ⟨hb, hC, hR⟩ := hbody (x, u) (x', u') ⟨hr, hR⟩
    exact ⟨hb, hletGo _ _ _ _ hC hR⟩

end Mirrors

/-! ## One computation after the other -/

/-- Computations one after the other; one that fails does not stop the others. -/
def each (step : ι → Attempt ε σ α) : List ι → σ → List (Except ε α) × σ
  | [], s => ([], s)
  | i :: is, s =>
    let (r, s) := step i s
    let (rs, s) := each step is s
    (r :: rs, s)

/-- **Mirrored computations stay mirrored one after the other.** -/
theorem each_mirrors {R : σ → σ' → Prop} {step : ι → Attempt ε σ α} {step' : ι → Attempt ε σ' α} {is : List ι}
    (h : ∀ i ∈ is, Mirrors R (· = ·) (step i) (step' i)) {s : σ} {s' : σ'} (hs : R s s') :
    (each step is s).1 = (each step' is s').1 ∧ R (each step is s).2 (each step' is s').2 := by
  induction is generalizing s s' with
  | nil => exact ⟨rfl, hs⟩
  | cons i is ih =>
    obtain ⟨hr, hR⟩ := h i List.mem_cons_self s s' hs
    obtain ⟨hrs, hR⟩ := ih (fun j hj => h j (List.mem_cons_of_mem _ hj)) hR
    refine ⟨?_, hR⟩
    show (step i s).1 :: _ = (step' i s').1 :: _
    rw [agree_eq_iff.1 hr]
    exact congrArg _ hrs

/-- Steps that only differ where one of them fails with a certain error do the same up to there. -/
theorem each_eq_of_not_mem {step step' : ι → Attempt ε σ α} {e : ε}
    (h : ∀ i s, (step i s).1 ≠ .error e → step i s = step' i s) :
    ∀ {is : List ι} {s : σ}, .error e ∉ (each step is s).1 → each step is s = each step' is s
  | [], _, _ => rfl
  | i :: is, s, hnot => by
    have hfirst : (step i s).1 ≠ .error e := fun heq => hnot (heq ▸ List.mem_cons_self)
    have hrest : each step is (step i s).2 = each step' is (step i s).2 :=
      each_eq_of_not_mem h fun hmem => hnot (List.mem_cons_of_mem _ hmem)
    unfold each
    rw [← h i s hfirst]
    dsimp only
    rw [hrest]

end Attempt
end RowStore

import Mathlib

/-!
# Lists of results

A list goes through a partial function as a whole if each item does (`mapM_ok_iff`).
-/
namespace RowStore

variable {α β ε : Type} {f : α → Except ε β}

theorem bind_ok_iff {γ : Type} {x : Except ε α} {g : α → Except ε γ} {c : γ} :
    (x >>= g) = .ok c ↔ ∃ a, x = .ok a ∧ g a = .ok c := by
  cases x with
  | error e => simp [bind, Except.bind]
  | ok a => simp [bind, Except.bind]

theorem bind_error_iff {γ : Type} {x : Except ε α} {g : α → Except ε γ} {e : ε} :
    (x >>= g) = .error e ↔ x = .error e ∨ ∃ a, x = .ok a ∧ g a = .error e := by
  cases x with
  | error e' => simp [bind, Except.bind]
  | ok a => simp [bind, Except.bind]

theorem map_ok_iff {x : Except ε α} {g : α → β} {b : β} : x.map g = .ok b ↔ ∃ a, x = .ok a ∧ g a = b := by
  cases x with
  | error e => simp [Except.map]
  | ok a => simp [Except.map]

/-- **A list of results is what the items give one by one.** -/
theorem mapM_ok_iff : ∀ {l : List α} {r : List β}, l.mapM f = .ok r ↔ List.Forall₂ (fun a b => f a = .ok b) l r
  | [], r => by
    rw [List.mapM_nil, List.forall₂_nil_left_iff]
    constructor
    · rintro ⟨⟩
      rfl
    · rintro rfl
      rfl
  | a :: l, r => by
    rw [List.mapM_cons, bind_ok_iff, List.forall₂_cons_left_iff]
    constructor
    · rintro ⟨b, hb, h⟩
      obtain ⟨bs, hbs, h⟩ := bind_ok_iff.1 h
      cases h
      exact ⟨b, bs, hb, mapM_ok_iff.1 hbs, rfl⟩
    · rintro ⟨b, bs, hb, hbs, rfl⟩
      exact ⟨b, hb, bind_ok_iff.2 ⟨bs, mapM_ok_iff.2 hbs, rfl⟩⟩

theorem exists_mapM_ok_iff : ∀ {l : List α}, (∃ r, l.mapM f = .ok r) ↔ ∀ a ∈ l, ∃ b, f a = .ok b
  | [] => ⟨fun _ _ h => absurd h List.not_mem_nil, fun _ => ⟨[], rfl⟩⟩
  | a :: l => by
    rw [List.forall_mem_cons, ← exists_mapM_ok_iff]
    simp only [mapM_ok_iff, List.forall₂_cons_left_iff]
    constructor
    · rintro ⟨_, b, bs, hb, hbs, -⟩
      exact ⟨⟨b, hb⟩, bs, hbs⟩
    · rintro ⟨⟨b, hb⟩, bs, hbs⟩
      exact ⟨_, b, bs, hb, hbs, rfl⟩

/-- **A list fails with the error of one of its items.** -/
theorem exists_of_mapM_error {e : ε} : ∀ {l : List α}, l.mapM f = .error e → ∃ a ∈ l, f a = .error e
  | [], h => by
    rw [List.mapM_nil] at h
    cases h
  | a :: l, h => by
    rw [List.mapM_cons] at h
    rcases bind_error_iff.1 h with ha | ⟨b, -, h⟩
    · exact ⟨a, List.mem_cons_self, ha⟩
    · rcases bind_error_iff.1 h with hl | ⟨bs, -, h⟩
      · obtain ⟨x, hx, hfail⟩ := exists_of_mapM_error hl
        exact ⟨x, List.mem_cons_of_mem _ hx, hfail⟩
      · cases h

/-- Whatever stands on the right of related lists has its counterpart on the left. -/
theorem exists_of_forall₂_of_mem {R : α → β → Prop} : ∀ {l : List α} {r : List β} {b : β},
    List.Forall₂ R l r → b ∈ r → ∃ a ∈ l, R a b
  | _, _, _, .cons hab h, hmem => by
    rcases List.mem_cons.1 hmem with rfl | hmem
    · exact ⟨_, List.mem_cons_self, hab⟩
    · obtain ⟨a, ha, hab⟩ := exists_of_forall₂_of_mem h hmem
      exact ⟨a, List.mem_cons_of_mem _ ha, hab⟩

end RowStore

import Mathlib
import RowStore.Memory.OrderedMap

/-!
# The laws of ordered maps

What `insert`, `erase` and `adjust` do to the entries of a map and to what it answers for a key, over any total order of
keys.  Keys that compare equal need not be the same key, so membership of entries and answers to look-ups are two
matters: on an ascending map they agree (`get?_of_mem`).
-/
namespace RowStore
namespace OrderedMap

open Std (TransOrd TransCmp OrientedCmp LawfulEqOrd)

variable {α β : Type} [Ord α] {m : OrderedMap α β} {k k' : α} {v : β}

/-! ## Looking up -/

theorem exists_mem_of_get? (h : m.get? k = some v) : ∃ k', (k', v) ∈ m.entries ∧ compare k' k = .eq := by
  obtain ⟨e, he, rfl⟩ := Option.map_eq_some_iff.1 h
  exact ⟨e.1, List.mem_of_find?_eq_some he, by simpa using List.find?_some he⟩

theorem get?_eq_none : m.get? k = none ↔ ∀ e ∈ m.entries, compare e.1 k ≠ .eq := by
  unfold get?
  rw [Option.map_eq_none_iff, List.find?_eq_none]
  simp

/-! ## Entries that stay -/

theorem ascending_empty : (empty : OrderedMap α β).Ascending := List.Pairwise.nil

theorem mem_erase {e : α × β} : e ∈ (m.erase k).entries ↔ e ∈ m.entries ∧ compare e.1 k ≠ .eq := by
  simp [erase]

theorem ascending_erase (h : m.Ascending) : (m.erase k).Ascending := List.Pairwise.filter _ h

theorem keys_adjust {f : β → β} : (m.adjust k f).keys = m.keys := by
  unfold adjust keys
  rw [List.map_map]
  refine List.map_congr_left fun e _ => ?_
  simp only [Function.comp_apply]
  split <;> rfl

/-! ## Keys that compare equal -/

variable [TransOrd α]

theorem compare_eq_comm : compare k k' = .eq ↔ compare k' k = .eq := OrientedCmp.eq_comm

/-- **In an ascending map no two entries have equal keys.** -/
theorem eq_of_mem_of_mem (hm : m.Ascending) {e e' : α × β} (he : e ∈ m.entries) (he' : e' ∈ m.entries)
    (h : compare e.1 e'.1 = .eq) : e = e' := by
  have hs : m.entries.Pairwise fun a b => compare a.1 b.1 = .eq → a = b := by
    refine List.Pairwise.imp (fun {a b} hlt heq => ?_) hm
    rw [hlt] at heq
    cases heq
  have : Std.Symm fun a b : α × β => compare a.1 b.1 = .eq → a = b :=
    ⟨fun a b hab heq => (hab (compare_eq_comm.1 heq)).symm⟩
  exact hs.forall_of_forall (fun _ _ _ => rfl) he he' h

/-- **An ascending map answers its entries.** -/
theorem get?_of_mem (hm : m.Ascending) (he : (k', v) ∈ m.entries) (h : compare k' k = .eq) : m.get? k = some v := by
  cases hg : m.get? k with
  | none => exact absurd h (get?_eq_none.1 hg (k', v) he)
  | some w =>
    obtain ⟨k'', he', h'⟩ := exists_mem_of_get? hg
    have hww := eq_of_mem_of_mem hm he' he (TransCmp.eq_trans h' (compare_eq_comm.1 h))
    cases hww
    rfl

/-- **Ascending maps with the same entries are equal.** -/
theorem ext_of_mem {m' : OrderedMap α β} (hm : m.Ascending) (hm' : m'.Ascending)
    (h : ∀ e, e ∈ m.entries ↔ e ∈ m'.entries) : m = m' := by
  have hnodup : ∀ {n : OrderedMap α β}, n.Ascending → n.entries.Nodup := fun hn => by
    refine List.Pairwise.imp (fun {a b} hlt heq => ?_) hn
    rw [heq] at hlt
    exact absurd hlt (by rw [show compare b.1 b.1 = .eq from Std.ReflCmp.compare_self]; simp)
  have hperm : m.entries.Perm m'.entries := (List.perm_ext_iff_of_nodup (hnodup hm) (hnodup hm')).2 h
  have hentries : m.entries = m'.entries := List.Perm.eq_of_pairwise (fun a b _ _ hab hba => by
    rw [OrientedCmp.gt_of_lt hab] at hba
    cases hba) hm hm' hperm
  cases m
  cases m'
  cases hentries
  rfl

theorem ext_of_get? {m' : OrderedMap α β} (hm : m.Ascending) (hkeys : m.keys = m'.keys)
    (h : ∀ k ∈ m.keys, m.get? k = m'.get? k) : m = m' := by
  have hm' : m'.Ascending := by
    have hpair : m.keys.Pairwise fun a b => compare a b = .lt := List.pairwise_map.2 hm
    rw [hkeys] at hpair
    exact List.pairwise_map.1 hpair
  refine ext_of_mem hm hm' fun e => ⟨fun he => ?_, fun he => ?_⟩
  · have hk : e.1 ∈ m.keys := List.mem_map_of_mem he
    have hget := h e.1 hk
    rw [get?_of_mem hm he Std.ReflCmp.compare_self] at hget
    rw [hkeys] at hk
    obtain ⟨e', he', hkey⟩ := List.mem_map.1 hk
    rw [get?_of_mem hm' he' (hkey ▸ Std.ReflCmp.compare_self)] at hget
    have heq : e' = e := Prod.ext hkey (Option.some.inj hget.symm)
    exact heq ▸ he'
  · have hk : e.1 ∈ m'.keys := List.mem_map_of_mem he
    rw [← hkeys] at hk
    have hget := h e.1 hk
    rw [get?_of_mem hm' he Std.ReflCmp.compare_self] at hget
    obtain ⟨e', he', hkey⟩ := List.mem_map.1 hk
    rw [get?_of_mem hm he' (hkey ▸ Std.ReflCmp.compare_self)] at hget
    have heq : e' = e := Prod.ext hkey (Option.some.inj hget)
    exact heq ▸ he'

/-! ## Inserting -/

/-- An entry of a map after an insertion is the new one, under a key that compares equal, or an old one. -/
theorem mem_insertEntry_imp {e : α × β} :
    ∀ {l : List (α × β)}, e ∈ insertEntry k v l → (compare k e.1 = .eq ∧ e.2 = v) ∨ e ∈ l
  | [], h => by
    rw [insertEntry, List.mem_singleton] at h
    subst h
    exact Or.inl ⟨Std.ReflCmp.compare_self, rfl⟩
  | x :: l, h => by
    unfold insertEntry at h
    split at h
    · rcases List.mem_cons.1 h with rfl | h
      · exact Or.inl ⟨Std.ReflCmp.compare_self, rfl⟩
      · exact Or.inr h
    · rename_i hc
      rcases List.mem_cons.1 h with rfl | h
      · exact Or.inl ⟨hc, rfl⟩
      · exact Or.inr (List.mem_cons_of_mem _ h)
    · rcases List.mem_cons.1 h with rfl | h
      · exact Or.inr List.mem_cons_self
      · exact (mem_insertEntry_imp h).imp_right (List.mem_cons_of_mem _)

theorem mem_insert_imp {e : α × β} (h : e ∈ (m.insert k v).entries) :
    (compare k e.1 = .eq ∧ e.2 = v) ∨ e ∈ m.entries := mem_insertEntry_imp h

theorem mem_insertEntry {e : α × β} : ∀ {l : List (α × β)}, (∀ x ∈ l, compare x.1 k ≠ .eq) →
    (e ∈ insertEntry k v l ↔ e = (k, v) ∨ e ∈ l)
  | [], _ => by simp [insertEntry]
  | x :: l, h => by
    have hl : e ∈ insertEntry k v l ↔ e = (k, v) ∨ e ∈ l :=
      mem_insertEntry fun y hy => h y (List.mem_cons_of_mem _ hy)
    unfold insertEntry
    split
    · simp
    · rename_i hc
      exact absurd (compare_eq_comm.1 hc) (h x List.mem_cons_self)
    · rw [List.mem_cons, hl, List.mem_cons]
      tauto

theorem mem_insert {e : α × β} (h : m.get? k = none) : e ∈ (m.insert k v).entries ↔ e = (k, v) ∨ e ∈ m.entries :=
  mem_insertEntry (get?_eq_none.1 h)

theorem pairwise_insertEntry : ∀ {l : List (α × β)}, (l.Pairwise fun a b => compare a.1 b.1 = .lt) →
    (insertEntry k v l).Pairwise fun a b => compare a.1 b.1 = .lt
  | [], _ => List.pairwise_singleton _ _
  | x :: l, h => by
    have hx := List.pairwise_cons.1 h
    unfold insertEntry
    split
    · rename_i hc
      refine List.pairwise_cons.2 ⟨fun y hy => ?_, h⟩
      rcases List.mem_cons.1 hy with rfl | hy
      · exact hc
      · exact TransCmp.lt_trans hc (hx.1 y hy)
    · exact List.pairwise_cons.2 hx
    · rename_i hc
      refine List.pairwise_cons.2 ⟨fun y hy => ?_, pairwise_insertEntry hx.2⟩
      rcases mem_insertEntry_imp hy with ⟨heq, -⟩ | hy
      · exact TransCmp.lt_of_lt_of_eq (OrientedCmp.lt_of_gt hc) heq
      · exact hx.1 y hy

theorem ascending_insert (h : m.Ascending) : (m.insert k v).Ascending := pairwise_insertEntry h

/-- **What a map answers after an insertion.** -/
theorem get?_insert : (m.insert k v).get? k' = if compare k k' = .eq then some v else m.get? k' := by
  unfold insert get?
  induction m.entries with
  | nil =>
    unfold insertEntry
    by_cases h : compare k k' = .eq <;> simp [h]
  | cons x l ih =>
    unfold insertEntry
    split
    · by_cases h : compare k k' = .eq <;> simp [h]
    · rename_i hc
      rw [List.find?_cons, List.find?_cons, TransCmp.congr_left hc]
      cases hb : compare x.1 k' == .eq
      · have hne : compare x.1 k' ≠ .eq := by simpa using hb
        simp [hne]
      · have heq : compare x.1 k' = .eq := by simpa using hb
        simp [heq]
    · rename_i hc
      rw [List.find?_cons, List.find?_cons]
      by_cases h : compare x.1 k' = .eq
      · have hne : compare k k' ≠ .eq := fun heq => by
          have := TransCmp.eq_trans heq (compare_eq_comm.1 h)
          rw [hc] at this
          cases this
        simp [h, hne]
      · have hb : (compare x.1 k' == .eq) = false := by simpa using h
        simpa only [hb] using ih

theorem get?_insert_self : (m.insert k v).get? k = some v := by
  rw [get?_insert, if_pos Std.ReflCmp.compare_self]

theorem get?_insert_of_ne [Std.LawfulEqOrd α] (h : k ≠ k') : (m.insert k v).get? k' = m.get? k' := by
  rw [get?_insert, if_neg fun heq => h (Std.LawfulEqOrd.eq_of_compare heq)]

/-! ## Erasing -/

/-- **What a map answers after an erasure.** -/
theorem get?_erase : (m.erase k).get? k' = if compare k k' = .eq then none else m.get? k' := by
  split
  · rename_i h
    rw [get?_eq_none]
    intro e he heq
    exact (mem_erase.1 he).2 (TransCmp.eq_trans heq (compare_eq_comm.1 h))
  · rename_i h
    unfold erase get?
    rw [List.find?_filter]
    congr 2
    funext e
    by_cases he : compare e.1 k' = .eq
    · have hne : compare e.1 k ≠ .eq := fun hk => h (TransCmp.eq_trans (compare_eq_comm.1 hk) he)
      simp [he, hne]
    · simp [he]

/-! ## Adjusting -/

/-- **What a map answers after an adjustment.** -/
theorem get?_adjust {f : β → β} : (m.adjust k f).get? k' = if compare k k' = .eq then (m.get? k').map f else m.get? k' := by
  unfold adjust get?
  rw [List.find?_map]
  have hp : ((fun e : α × β => compare e.1 k' == .eq) ∘ fun e => if compare e.1 k == .eq then (e.1, f e.2) else e) =
      fun e : α × β => compare e.1 k' == .eq := by
    funext e
    simp only [Function.comp_apply]
    split <;> rfl
  rw [hp, Option.map_map]
  cases hf : m.entries.find? fun e => compare e.1 k' == .eq with
  | none => simp
  | some e =>
    have he : compare e.1 k' = .eq := by simpa using List.find?_some hf
    by_cases h : compare k k' = .eq
    · have hk : compare e.1 k = .eq := TransCmp.eq_trans he (compare_eq_comm.1 h)
      simp [h, hk]
    · have hk : compare e.1 k ≠ .eq := fun hk => h (TransCmp.eq_trans (compare_eq_comm.1 hk) he)
      simp [h, hk]

end OrderedMap
end RowStore
